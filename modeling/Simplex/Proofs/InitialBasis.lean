import Simplex.Proofs.Basis

/-!
The first basis. An inequality starts with its slack, an equation with the last variable of its left
side that has a unit column. Columns that earlier rows have taken are passed over, which changes
nothing: a column that is a unit column for one row is none for another. So the first tableau is
missing just if an equation has no variable with a unit column, and the first such row is named.
-/
namespace Simplex

open Scalar (UnitLaws)

variable {α : Type} [Scalar α]

/-- What an equation gives to a name: its coefficients, added up from zero in order. -/
def StandardConstraint.total (e : StandardConstraint α) (n : String) : α :=
  Scalar.accumulate ((e.lhs.filter fun t => t.name = n).map Term.coefficient)

namespace StandardForm

/-- A name has a unit column for an equation: it has the total one there, and zero elsewhere. -/
def HasUnitColumn (form : StandardForm α) (own : Nat) (n : String) : Prop :=
  ∀ (i : Nat) e, form.constraints[i]? = some e → (e.total n == unitEntry own i) = true

/-- The last name in an expression that has a unit column for an equation. -/
def LastUnit (form : StandardForm α) (own : Nat) (lhs : Expression α) (n : String) : Prop :=
  ∃ before t after, lhs = before ++ t :: after ∧ t.name = n ∧ form.HasUnitColumn own n ∧
    ∀ u ∈ after, ¬ form.HasUnitColumn own u.name

/-- A constraint is an equation without a unit column among the names of its left side. -/
def Baseless (form : StandardForm α) (own : Nat) (c : Constraint α) : Prop :=
  c.relation = .eq ∧ ∀ t ∈ c.lhs, ¬ form.HasUnitColumn own t.name

variable {form : StandardForm α} {i j : Nat} {e d : StandardConstraint α} {s : Symbol}

theorem getD_row_eq_total (column : s ∈ form.symbols.symbols) (e : StandardConstraint α) :
    (form.symbols.row e.lhs).getD s.index 0 = e.total (form.symbols.name s) :=
  form.symbols.getD_row column e.lhs

theorem isUnitColumn_iff (column : s ∈ form.symbols.symbols) :
    Tableau.isUnitColumn form.dense i s = true ↔ form.HasUnitColumn i (form.symbols.name s) := by
  unfold Tableau.isUnitColumn
  rw [List.all_eq_true]
  constructor
  · intro all j e equation
    have listed : (form.symbols.row e.lhs, j) ∈ form.dense.zipIdx := by
      rw [List.mem_zipIdx_iff_getElem?]
      simp [dense, equation]
    rw [← getD_row_eq_total column]
    exact all _ listed
  · rintro unit ⟨row, j⟩ listed
    rw [List.mem_zipIdx_iff_getElem?, dense, List.getElem?_map, Option.map_eq_some_iff] at listed
    obtain ⟨e, equation, rfl⟩ := listed
    have entry := unit j e equation
    rwa [← getD_row_eq_total column] at entry

/-- The column of a symbol may be the basis of an equation. -/
structure Claims (form : StandardForm α) (i : Nat) (s : Symbol) : Prop where
  equation : ∃ e, form.constraints[i]? = some e
  column : s ∈ form.symbols.symbols
  unit : form.HasUnitColumn i (form.symbols.name s)

variable [UnitLaws α]

/-- A name has a unit column for one equation only. -/
theorem HasUnitColumn.own_inj {n : String} (hi : form.HasUnitColumn i n)
    (hj : form.HasUnitColumn j n) (equation : form.constraints[i]? = some e) : i = j := by
  by_contra other
  have one := hi i e equation
  have zero := hj i e equation
  rw [unitEntry_self] at one
  rw [unitEntry_of_ne other, UnitLaws.beq_zero_of_beq_one one] at zero
  cases zero

end StandardForm

namespace Tableau

variable {p : Problem α} {form : StandardForm α} {i : Nat} {e : StandardConstraint α} {s : Symbol}

/-- The basis of an equation when no column is taken. -/
def unclaimedBasis? (form : StandardForm α) (i : Nat) (e : StandardConstraint α) : Option Symbol :=
  initialBasis? form.symbols form.dense [] i e

section Search

variable (slack : e.slack = none) (known : ∀ t ∈ e.lhs, t.name ∈ form.symbols.names)
include slack known

omit known in
theorem unclaimedBasis?_eq_find? : unclaimedBasis? form i e =
    (e.lhs.reverse.find? fun t => (form.symbols.symbol? t.name).any (isUnitColumn form.dense i)).bind
      fun t => form.symbols.symbol? t.name := by
  simp [unclaimedBasis?, initialBasis?, slack, List.find?_filterMap]

omit slack in
theorem accepts_iff {t : Term α} (member : t ∈ e.lhs) :
    (form.symbols.symbol? t.name).any (isUnitColumn form.dense i) = true ↔
      form.HasUnitColumn i t.name := by
  obtain ⟨s, column, named⟩ := form.symbols.exists_symbol (known t member)
  rw [form.symbols.symbol?_eq_some_iff.mpr ⟨column, named⟩, Option.any_some,
    StandardForm.isUnitColumn_iff column, named]

/-- An equation without a slack gets the last name that has a unit column. -/
theorem lastUnit_of_unclaimedBasis? (found : unclaimedBasis? form i e = some s) :
    form.LastUnit i e.lhs (form.symbols.name s) := by
  rw [unclaimedBasis?_eq_find? slack, Option.bind_eq_some_iff] at found
  obtain ⟨t, last, column⟩ := found
  obtain ⟨accepted, after, before, split, refused⟩ := List.find?_eq_some_iff_append.mp last
  have lhs : e.lhs = before.reverse ++ t :: after.reverse := by
    rw [← List.reverse_reverse e.lhs, split]
    simp
  have named := (form.symbols.symbol?_eq_some_iff.mp column).2
  have member : t ∈ e.lhs := lhs ▸ List.mem_append_right _ List.mem_cons_self
  refine ⟨before.reverse, t, after.reverse, lhs, named.symm, ?_, fun u later unit => ?_⟩
  · rw [named]
    exact (accepts_iff known member).mp accepted
  · have inside : u ∈ e.lhs := lhs ▸ List.mem_append_right _ (List.mem_cons_of_mem _ later)
    have refusal := refused u (List.mem_reverse.mp later)
    rw [(accepts_iff known inside).mpr unit] at refusal
    cases refusal

theorem unclaimedBasis?_eq_none_iff :
    unclaimedBasis? form i e = none ↔ ∀ t ∈ e.lhs, ¬ form.HasUnitColumn i t.name := by
  rw [unclaimedBasis?_eq_find? slack, Option.bind_eq_none_iff]
  constructor
  · intro none t member unit
    cases found : e.lhs.reverse.find? fun t =>
        (form.symbols.symbol? t.name).any (isUnitColumn form.dense i) with
    | none =>
      have refused := List.find?_eq_none.mp found t (List.mem_reverse.mpr member)
      exact refused ((accepts_iff known member).mpr unit)
    | some u =>
      have inside := List.mem_reverse.mp (List.mem_of_find?_eq_some found)
      obtain ⟨s, column, named⟩ := form.symbols.exists_symbol (known u inside)
      have absent := none u found
      rw [form.symbols.symbol?_eq_some_iff.mpr ⟨column, named⟩] at absent
      cases absent
  · intro none t found
    have inside := List.mem_reverse.mp (List.mem_of_find?_eq_some found)
    have accepted : (form.symbols.symbol? t.name).any (isUnitColumn form.dense i) = true := by
      simpa using List.find?_some found
    exact absurd ((accepts_iff known inside).mp accepted) (none t inside)

end Search

variable [UnitLaws α]

section Claimed

variable (h : form.Represents p)
include h

/-- Every basis that is found has a unit column. -/
theorem claims_of_initialBasis? (own : form.constraints[i]? = some e) {taken : List Symbol}
    (found : initialBasis? form.symbols form.dense taken i e = some s) : form.Claims i s := by
  have column := initialBasis?_mem found
  refine ⟨⟨e, own⟩, column, fun j d other => ?_⟩
  rw [← StandardForm.getD_row_eq_total column]
  exact initialEntry_beq h own other found

omit h in
/-- Columns that other equations have taken have no unit column here, so to pass over them changes
    nothing. -/
theorem initialBasis?_of_claimed (e : StandardConstraint α) {taken : List Symbol}
    (claimed : ∀ s ∈ taken, ∃ j, j ≠ i ∧ form.Claims j s) :
    initialBasis? form.symbols form.dense taken i e = unclaimedBasis? form i e := by
  have refused : ∀ s ∈ taken, isUnitColumn form.dense i s = false := by
    intro s member
    obtain ⟨j, other, claims⟩ := claimed s member
    obtain ⟨d, equation⟩ := claims.equation
    rw [Bool.eq_false_iff]
    intro unit
    have here := (StandardForm.isUnitColumn_iff claims.column).mp unit
    exact other (claims.unit.own_inj here equation)
  have same : (fun s => !taken.contains s && isUnitColumn form.dense i s) =
      fun s => !([] : List Symbol).contains s && isUnitColumn form.dense i s := by
    funext s
    by_cases member : s ∈ taken
    · simp [refused s member]
    · simp [member]
  unfold unclaimedBasis? initialBasis?
  rw [same]

/-- The first rows have the bases that their equations get with nothing taken; without first rows an
    equation gets none, and those before it get one. -/
def Settles (form : StandardForm α) (items : List (StandardConstraint α × List α × Nat)) :
    Except FramingError (List (Row α)) → Prop
  | .ok rows => List.Forall₂
      (fun item r => unclaimedBasis? form item.2.2 item.1 = some r.basis) items rows
  | .error error => ∃ before item after, items = before ++ item :: after ∧
      error = .noInitialBasis item.2.2 ∧ unclaimedBasis? form item.2.2 item.1 = none ∧
      ∀ b ∈ before, unclaimedBasis? form b.2.2 b.1 ≠ none

theorem settles_initialRows {taken : List Symbol}
    {items : List (StandardConstraint α × List α × Nat)}
    (placed : ∀ item ∈ items, form.constraints[item.2.2]? = some item.1)
    (distinct : (items.map fun item => item.2.2).Nodup)
    (claimed : ∀ s ∈ taken, ∃ j, form.Claims j s ∧ ∀ item ∈ items, j ≠ item.2.2) :
    Settles form items (initialRows form form.dense taken items) := by
  induction items generalizing taken with
  | nil => exact .nil
  | cons item rest ih =>
    obtain ⟨e, coefficients, i⟩ := item
    rw [List.forall_mem_cons] at placed
    rw [List.map_cons, List.nodup_cons] at distinct
    have here : initialBasis? form.symbols form.dense taken i e = unclaimedBasis? form i e := by
      apply initialBasis?_of_claimed
      intro s member
      obtain ⟨j, claims, apart⟩ := claimed s member
      exact ⟨j, apart _ List.mem_cons_self, claims⟩
    unfold initialRows
    rw [here]
    cases found : unclaimedBasis? form i e with
    | none => exact ⟨[], _, rest, rfl, rfl, found, by simp⟩
    | some s =>
      -- the rest is searched with the own column taken too, and the own number is not among theirs
      have widened : ∀ u ∈ taken ++ [s], ∃ j, form.Claims j u ∧ ∀ item ∈ rest, j ≠ item.2.2 := by
        intro u member
        rcases List.mem_append.mp member with earlier | last
        · obtain ⟨j, claims, apart⟩ := claimed u earlier
          exact ⟨j, claims, fun item listed => apart item (List.mem_cons_of_mem _ listed)⟩
        · rw [List.mem_singleton.mp last]
          refine ⟨i, claims_of_initialBasis? h placed.1 found, fun item listed same => ?_⟩
          exact distinct.1 (List.mem_map.mpr ⟨item, listed, same.symm⟩)
      have later := ih placed.2 distinct.2 widened
      dsimp only
      cases made : initialRows form form.dense (taken ++ [s]) rest with
      | ok rows =>
        rw [made] at later
        exact List.Forall₂.cons found later
      | error error =>
        rw [made] at later
        obtain ⟨before, item, after, split, named, none, others⟩ := later
        refine ⟨_ :: before, item, after, by rw [split, List.cons_append], named, none, ?_⟩
        rw [List.forall_mem_cons]
        exact ⟨by simp [found], others⟩

omit h [UnitLaws α] in
theorem item_at (own : form.constraints[i]? = some e) :
    (form.constraints.zip form.dense.zipIdx)[i]? = some (e, form.symbols.row e.lhs, i) := by
  rw [List.getElem?_zip_eq_some, List.getElem?_zipIdx, StandardForm.dense, List.getElem?_map, own]
  simp

omit h [UnitLaws α] in
theorem equation_of_item {item : StandardConstraint α × List α × Nat}
    (found : (form.constraints.zip form.dense.zipIdx)[i]? = some item) :
    form.constraints[i]? = some item.1 ∧ item.2.2 = i := by
  obtain ⟨e, coefficients, k⟩ := item
  rw [List.getElem?_zip_eq_some, List.getElem?_zipIdx, Option.map_eq_some_iff] at found
  obtain ⟨equation, row, _, numbered⟩ := found
  rw [Prod.mk.injEq, zero_add] at numbered
  exact ⟨equation, numbered.2.symm⟩

theorem settles_initial : Settles form (form.constraints.zip form.dense.zipIdx)
    ((initial form).map Tableau.rows) := by
  have rows : (initial form).map Tableau.rows =
      initialRows form form.dense [] (form.constraints.zip form.dense.zipIdx) := by
    change ((initialRows form form.dense [] (form.constraints.zip form.dense.zipIdx)).map _).map _ = _
    cases initialRows form form.dense [] (form.constraints.zip form.dense.zipIdx) <;> rfl
  rw [rows]
  refine settles_initialRows h (fun item member => ?_) ?_ (by simp)
  · obtain ⟨i, found⟩ := List.mem_iff_getElem?.mp member
    obtain ⟨equation, number⟩ := equation_of_item found
    rwa [number]
  · have paired : (form.constraints.zip form.dense.zipIdx).map Prod.snd = form.dense.zipIdx :=
      List.map_snd_zip (by simp [StandardForm.dense])
    have numbers : (form.constraints.zip form.dense.zipIdx).map (fun item => item.2.2) =
        List.range' 0 form.dense.length :=
      calc (form.constraints.zip form.dense.zipIdx).map (fun item => item.2.2)
          = ((form.constraints.zip form.dense.zipIdx).map Prod.snd).map Prod.snd := by
            rw [List.map_map]; rfl
        _ = form.dense.zipIdx.map Prod.snd := by rw [paired]
        _ = List.range' 0 form.dense.length := List.zipIdx_map_snd 0 _
    rw [numbers]
    exact List.nodup_range'

/-- Every row of the first tableau has the basis of its equation. -/
theorem basis_of_initial {t : Tableau α} (made : initial form = .ok t)
    (own : form.constraints[i]? = some e) :
    ∃ r, t.rows[i]? = some r ∧ unclaimedBasis? form i e = some r.basis := by
  have settled := settles_initial h
  rw [made] at settled
  obtain ⟨inside, place⟩ := List.getElem?_eq_some_iff.mp (item_at own)
  obtain ⟨length, each⟩ := List.forall₂_iff_get.mp settled
  have inside' : i < t.rows.length := length ▸ inside
  have found := each i inside inside'
  rw [List.get_eq_getElem, place] at found
  exact ⟨t.rows[i], List.getElem?_eq_getElem inside', found⟩

/-- Without a first tableau, the first equation that has no basis is named. -/
theorem noBasis_of_initial {error : FramingError} (failed : initial form = .error error) :
    ∃ i e, error = .noInitialBasis i ∧ form.constraints[i]? = some e ∧
      unclaimedBasis? form i e = none ∧
      ∀ j < i, ∀ d, form.constraints[j]? = some d → unclaimedBasis? form j d ≠ none := by
  have settled := settles_initial h
  rw [failed] at settled
  obtain ⟨before, item, after, split, named, none, others⟩ := settled
  have place : (form.constraints.zip form.dense.zipIdx)[before.length]? = some item := by
    simp [split]
  obtain ⟨equation, number⟩ := equation_of_item place
  rw [number] at named none
  refine ⟨before.length, item.1, named, equation, none, fun j earlier d other => ?_⟩
  have listed := item_at other
  rw [split, List.getElem?_append_left earlier] at listed
  exact others _ (List.mem_of_getElem? listed)

end Claimed

omit [UnitLaws α] in
/-- An equation gets no basis just if it states a constraint that is an equation without a unit
    column. -/
theorem unclaimedBasis?_eq_none_iff_baseless (h : form.Represents p)
    (own : form.constraints[i]? = some e) {c : Constraint α}
    (states : StandardForm.States form.slackLetter c e) :
    unclaimedBasis? form i e = none ↔ form.Baseless i c := by
  by_cases relation : c.relation = .eq
  · have equation := states.eq relation
    have known := h.equation_known (List.mem_of_getElem? own)
    rw [unclaimedBasis?_eq_none_iff (by rw [equation]) known, equation]
    exact ⟨fun none => ⟨relation, none⟩, fun baseless => baseless.2⟩
  · obtain ⟨n, slack⟩ := states.exists_slack relation
    have isSlack : n ∈ form.slacks :=
      List.mem_filterMap.mpr ⟨e, List.mem_of_getElem? own, slack⟩
    obtain ⟨s, column, named⟩ := form.symbols.exists_symbol (h.slack_known isSlack)
    have found : unclaimedBasis? form i e = some s := by
      simp only [unclaimedBasis?, initialBasis?, slack]
      exact form.symbols.symbol?_eq_some_iff.mpr ⟨column, named⟩
    rw [found]
    exact ⟨fun none => (by cases none), fun baseless => absurd baseless.1 relation⟩

section Constraints

variable (h : form.Represents p) {c : Constraint α}
include h

/-- In the first tableau an inequality has its slack, and an equation the last name of its left side
    that has a unit column. -/
theorem basis_of_constraint {t : Tableau α} (made : initial form = .ok t)
    (found : p.constraints[i]? = some c) :
    ∃ e r, form.constraints[i]? = some e ∧ t.rows[i]? = some r ∧
      form.symbols.symbol? r.basisVariable = some r.basis ∧
      if c.relation = .eq then form.LastUnit i c.lhs r.basisVariable
      else e.slack = some r.basisVariable := by
  have fits := initial_fits made
  obtain ⟨e, own, states⟩ := h.equation_at found
  obtain ⟨r, row, basis⟩ := basis_of_initial h made own
  have member := List.mem_of_getElem? row
  have named := fits.basisVariable r member
  refine ⟨e, r, own, row, ?_, ?_⟩
  · exact form.symbols.symbol?_eq_some_iff.mpr ⟨fits.basis r member, named.symm⟩
  · by_cases relation : c.relation = .eq
    · have equation := states.eq relation
      have last := lastUnit_of_unclaimedBasis? (by rw [equation])
        (h.equation_known (List.mem_of_getElem? own)) basis
      rw [if_pos relation, named]
      rwa [equation] at last
    · obtain ⟨n, slack⟩ := states.exists_slack relation
      simp only [unclaimedBasis?, initialBasis?, slack] at basis
      rw [if_neg relation, slack, named, (form.symbols.symbol?_eq_some_iff.mp basis).2]

/-- There is no first tableau just if an equation has no name with a unit column; the first of these
    is named. -/
theorem initial_error_iff {error : FramingError} :
    initial form = .error error ↔ ∃ i c, error = .noInitialBasis i ∧
      p.constraints[i]? = some c ∧ form.Baseless i c ∧
      ∀ j < i, ∀ d, p.constraints[j]? = some d → ¬ form.Baseless j d := by
  constructor
  · intro failed
    obtain ⟨i, e, named, own, none, others⟩ := noBasis_of_initial h failed
    obtain ⟨c, found, states⟩ := h.constraint_at own
    have baseless := (unclaimedBasis?_eq_none_iff_baseless h own states).mp none
    refine ⟨i, c, named, found, baseless, fun j earlier d other without => ?_⟩
    obtain ⟨e', own', states'⟩ := h.equation_at other
    exact others j earlier e' own'
      ((unclaimedBasis?_eq_none_iff_baseless h own' states').mpr without)
  · rintro ⟨i, c, rfl, found, baseless, others⟩
    obtain ⟨e, own, states⟩ := h.equation_at found
    have none := (unclaimedBasis?_eq_none_iff_baseless h own states).mpr baseless
    cases result : initial form with
    | ok t =>
      obtain ⟨r, _, basis⟩ := basis_of_initial h result own
      rw [none] at basis
      cases basis
    | error error =>
      obtain ⟨k, e', rfl, own', none', before⟩ := noBasis_of_initial h result
      obtain ⟨c', found', states'⟩ := h.constraint_at own'
      have baseless' := (unclaimedBasis?_eq_none_iff_baseless h own' states').mp none'
      -- both are the first without a basis
      have same : i = k := by
        rcases Nat.lt_trichotomy i k with less | equal | greater
        · exact absurd none (before i less e own)
        · exact equal
        · exact absurd baseless' (others k greater c' found')
      rw [same]

end Constraints

end Tableau

/-- The first basis of a problem. In a first tableau an inequality has its slack, and an equation has
    the last name of its left side that has a unit column (a constant stands under the empty name);
    the bases are distinct, with exact unit columns. A problem without a first tableau is one with an
    equation that has no such name, and the first of these is named. So the columns that rows before
    have taken do not matter. -/
theorem initial_basis_complete {p : Problem Float} {form : StandardForm Float}
    (made : StandardForm.ofProblem p = .ok form) :
    (∀ t, Tableau.initial form = .ok t →
      t.rows.length = p.constraints.length ∧ t.RowsNumbered ∧
      (∀ (i : Nat) c, p.constraints[i]? = some c → ∃ e r,
        form.constraints[i]? = some e ∧ t.rows[i]? = some r ∧
        form.symbols.symbol? r.basisVariable = some r.basis ∧
        if c.relation = .eq then form.LastUnit i c.lhs r.basisVariable
        else e.slack = some r.basisVariable) ∧
      (t.rows.map Row.basis).Nodup ∧ t.ExactUnits) ∧
    ∀ error, Tableau.initial form = .error error ↔ ∃ i c, error = .noInitialBasis i ∧
      p.constraints[i]? = some c ∧ form.Baseless i c ∧
      ∀ j < i, ∀ d, p.constraints[j]? = some d → ¬ form.Baseless j d := by
  have represents := StandardForm.represents_of_ofProblem made
  refine ⟨fun t first => ?_, fun error => Tableau.initial_error_iff represents⟩
  have fits := Tableau.initial_fits first
  have based := Tableau.based_initial represents first
  refine ⟨?_, fits.rowsNumbered, fun i c => Tableau.basis_of_constraint represents first,
    based.bases_nodup, Tableau.initial_exactUnits represents first⟩
  rw [fits.length_rows, represents.length_constraints]

/-- Inequalities around two equations. In the first of them `w` comes last, but is in the second too;
    `z` has the unit column there, with its two halves added. -/
def interleaved : Problem Float where
  direction := .maximize
  objective := [{ coefficient := 1, name := "x" }]
  objectiveConstant := 0
  constraints := [
    ⟨[{ coefficient := 1, name := "x" }, { coefficient := 1, name := "y" }], .le, 4⟩,
    ⟨[{ coefficient := 0.5, name := "z" }, { coefficient := 2, name := "x" },
      { coefficient := 0.5, name := "z" }, { coefficient := 1, name := "w" }], .eq, 3⟩,
    ⟨[{ coefficient := 3, name := "x" }], .ge, 1⟩,
    ⟨[{ coefficient := 1, name := "w" }, { coefficient := 1, name := "v" },
      { coefficient := 1, name := "u" }], .eq, 5⟩]

/-- The first basis, and an equation that gets none: `w` is all it has, and stands in others too. -/
theorem interleaved_basis :
    (∃ form t, StandardForm.ofProblem interleaved = .ok form ∧ Tableau.initial form = .ok t ∧
      t.rows.map Row.basisVariable = ["d1", "z", "d2", "u"] ∧ t.ExactUnits ∧
      form.LastUnit 1 interleaved.constraints[1].lhs "z") ∧
    ∃ form, StandardForm.ofProblem { interleaved with constraints :=
        interleaved.constraints ++ [⟨[{ coefficient := 1, name := "w" }], .eq, 1⟩] } = .ok form ∧
      Tableau.initial form = .error (.noInitialBasis 4) ∧
      form.Baseless 4 ⟨[{ coefficient := 1, name := "w" }], .eq, 1⟩ := by
  constructor
  · obtain ⟨form, made, checked⟩ := exists_ok (StandardForm.ofProblem interleaved)
      (fun form => (Tableau.initial form).toOption.any fun t =>
        t.rows.map Row.basisVariable == ["d1", "z", "d2", "u"]) (by decide +kernel)
    cases first : Tableau.initial form with
    | error error =>
      rw [first] at checked
      cases checked
    | ok t =>
      rw [first] at checked
      have names : t.rows.map Row.basisVariable = ["d1", "z", "d2", "u"] := beq_iff_eq.mp checked
      obtain ⟨_, _, rows, _, units⟩ := (initial_basis_complete made).1 t first
      obtain ⟨e, r, _, row, _, last⟩ := rows 1 _ rfl
      have place := congrArg (·[1]?) names
      simp only [List.getElem?_map, row, Option.map_some] at place
      have named : r.basisVariable = "z" := Option.some.inj place
      exact ⟨form, t, made, first, names, units, named ▸ last⟩
  · obtain ⟨form, made, checked⟩ := exists_ok (StandardForm.ofProblem { interleaved with
        constraints := interleaved.constraints ++ [⟨[{ coefficient := 1, name := "w" }], .eq, 1⟩] })
      (fun form => match Tableau.initial form with
        | .error error => error == .noInitialBasis 4
        | .ok _ => false) (by decide +kernel)
    cases first : Tableau.initial form with
    | ok t =>
      rw [first] at checked
      cases checked
    | error error =>
      rw [first] at checked
      cases beq_iff_eq.mp checked
      obtain ⟨i, c, same, found, baseless, _⟩ := ((initial_basis_complete made).2 _).mp first
      cases same
      cases found
      exact ⟨form, made, first, baseless⟩

end Simplex
