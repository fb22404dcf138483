import Simplex.Proofs.Choice
import Simplex.Proofs.Slacks

/-!
The shape of a tableau: its columns and costs are those of the standard form, its rows are numbered
and have one entry for each column, and each row knows the name and the cost of its basis. The first
tableau has this shape, looking for a pivot changes only marks, and pivoting keeps it.
-/
namespace Simplex

variable {α : Type}

/-- A row without the marks that looking for a pivot leaves on it. -/
def Row.bare (r : Row α) : Row α := { r with ratio := none, isPivotRow := false }

theorem Row.bare_inj {r o : Row α} : r.bare = o.bare ↔ r.index = o.index ∧ r.basis = o.basis ∧
    r.basisVariable = o.basisVariable ∧ r.basisCost = o.basisCost ∧ r.rhs = o.rhs ∧
    r.coefficients = o.coefficients := by
  simp [Row.bare]

namespace Tableau

/-- A tableau without what evaluating it and looking for a pivot record on it. -/
def bare (t : Tableau α) : Tableau α :=
  { t with rows := t.rows.map Row.bare, zj := [], relativeCosts := [], pivot := none }

theorem bare_inj {t u : Tableau α} : t.bare = u.bare ↔ t.iteration = u.iteration ∧
    t.columns = u.columns ∧ t.costs = u.costs ∧ t.rows.map Row.bare = u.rows.map Row.bare := by
  simp [bare]

/-- Two tableaux with the same bare form have the same rows up to marks. -/
theorem exists_row_of_bare {t u : Tableau α} (same : t.bare = u.bare) {r : Row α}
    (member : r ∈ u.rows) : ∃ o ∈ t.rows, o.bare = r.bare := by
  have rows := (bare_inj.mp same).2.2.2
  exact List.mem_map.mp (rows ▸ List.mem_map_of_mem member)

/-- The columns are `a1`, `a2`, … in order, one for each cost. -/
def ColumnsInOrder (t : Tableau α) : Prop :=
  t.columns = (List.range t.costs.length).map Symbol.mk

/-- The rows are numbered by their places. -/
def RowsNumbered (t : Tableau α) : Prop := t.rows.map Row.index = List.range t.rows.length

section Places

variable {t : Tableau α}

theorem ColumnsInOrder.getElem?_index (h : t.ColumnsInOrder) {s : Symbol} (member : s ∈ t.columns) :
    t.columns[s.index]? = some s ∧ s.index < t.costs.length := by
  unfold ColumnsInOrder at h
  rw [h] at member ⊢
  obtain ⟨i, inside, rfl⟩ := List.mem_map.mp member
  have bound := List.mem_range.mp inside
  simp [bound]

theorem ColumnsInOrder.columns_nodup (h : t.ColumnsInOrder) : t.columns.Nodup := by
  rw [h]
  exact List.nodup_range.map fun _ _ same => congrArg Symbol.index same

namespace RowsNumbered

variable (h : t.RowsNumbered)
include h

theorem rows_nodup : t.rows.Nodup := by
  refine List.Nodup.of_map Row.index ?_
  rw [h]
  exact List.nodup_range

theorem index_of_getElem? {i : Nat} {r : Row α} (found : t.rows[i]? = some r) : r.index = i := by
  obtain ⟨inside, rfl⟩ := List.getElem?_eq_some_iff.mp found
  have numbered := congrArg (·[i]?) h
  simpa [inside] using numbered

theorem getElem?_index {r : Row α} (member : r ∈ t.rows) : t.rows[r.index]? = some r := by
  obtain ⟨i, found⟩ := List.mem_iff_getElem?.mp member
  rw [h.index_of_getElem? found, found]

theorem index_inj {r o : Row α} (hr : r ∈ t.rows) (ho : o ∈ t.rows) :
    r.index = o.index ↔ r = o := by
  constructor
  · intro same
    have found := h.getElem?_index hr
    rw [same, h.getElem?_index ho] at found
    exact (Option.some.inj found).symm
  · rintro rfl; rfl

theorem of_bare {u : Tableau α} (same : t.bare = u.bare) : u.RowsNumbered := by
  have rows := (bare_inj.mp same).2.2.2
  have indices := congrArg (List.map Row.index) rows
  have lengths := congrArg List.length rows
  simp only [List.map_map, List.length_map] at indices lengths
  unfold RowsNumbered
  rw [← lengths]
  exact indices.symm.trans h

/-- To mark the row at the place that a number says is to mark the row with that number. -/
theorem set_marked (unmarked : ∀ r ∈ t.rows, r.isPivotRow = false) {leaving : Row α}
    (member : leaving ∈ t.rows) :
    t.rows.set leaving.index { leaving with isPivotRow := true } =
      t.rows.map fun r => { r with isPivotRow := r.index == leaving.index } := by
  have place := h.getElem?_index member
  apply List.ext_getElem?
  intro i
  by_cases own : leaving.index = i
  · subst own
    have inside : leaving.index < t.rows.length := (List.getElem?_eq_some_iff.mp place).1
    simp [List.getElem?_set_self inside, place]
  · rw [List.getElem?_set_ne own, List.getElem?_map]
    cases found : t.rows[i]? with
    | none => rfl
    | some r =>
      have number := h.index_of_getElem? found
      have other : (r.index == leaving.index) = false := by simp; omega
      have plain := unmarked r (List.mem_of_getElem? found)
      simp only [Option.map_some, other, ← plain]

end RowsNumbered

/-- The columns and the rows are numbered by their places, and each row has an entry for each
    column. -/
structure Regular (t : Tableau α) : Prop where
  columns : t.columns = (List.range t.columns.length).map Symbol.mk
  numbered : t.RowsNumbered
  wide : ∀ r ∈ t.rows, r.coefficients.length = t.columns.length

namespace Regular

variable (h : t.Regular)
include h

theorem of_bare {u : Tableau α} (same : t.bare = u.bare) : u.Regular := by
  have columns := (bare_inj.mp same).2.1
  refine ⟨columns ▸ h.columns, h.numbered.of_bare same, fun r member => ?_⟩
  obtain ⟨o, listed, equal⟩ := exists_row_of_bare same member
  have coefficients := (Row.bare_inj.mp equal).2.2.2.2.2
  rw [← coefficients, h.wide o listed, columns]

theorem index_lt {s : Symbol} (column : s ∈ t.columns) : s.index < t.columns.length := by
  rw [h.columns] at column
  obtain ⟨i, inside, rfl⟩ := List.mem_map.mp column
  exact List.mem_range.mp inside

end Regular

end Places

variable [Scalar α]

theorem bare_evaluate (t : Tableau α) : t.evaluate.bare = t.bare := rfl

/-- Looking for a pivot changes marks only, whatever it finds. -/
theorem bare_selectPivot (t : Tableau α) (tolerance : α) :
    (t.selectPivot tolerance).1.bare = t.bare := by
  unfold selectPivot
  split
  · rfl
  · split
    · rfl
    · simp only
      split <;> simp [bare, Row.bare, Row.withRatio]

theorem bare_of_selected {t u : Tableau α} {tolerance : α}
    {choice : Except (CalculationError α) (PivotChoice α)}
    (chosen : t.evaluate.selectPivot tolerance = (u, choice)) : u.bare = t.bare := by
  rw [← bare_evaluate t, ← bare_selectPivot t.evaluate tolerance, chosen]

theorem relativeCosts_selectPivot {t u : Tableau α} {tolerance : α} {choice : PivotChoice α}
    (chosen : t.selectPivot tolerance = (u, .ok choice)) : u.relativeCosts = t.relativeCosts := by
  have found := (selectPivot_ok chosen).2
  cases choice with
  | optimal => rw [found.2]
  | unbounded s => rw [found.2.2]
  | pivot p =>
    obtain ⟨_, leaving, _, _, rfl⟩ := found
    rfl

/-- A tableau has the columns and costs of a standard form, numbered rows with an entry for each
    column, and bases with their names and costs. -/
structure Fits (form : StandardForm α) (t : Tableau α) : Prop where
  columns : t.columns = form.symbols.symbols
  costs : t.costs = form.costs
  numbered : t.rows.map Row.index = List.range form.constraints.length
  wide : ∀ r ∈ t.rows, r.coefficients.length = form.symbols.size
  basis : ∀ r ∈ t.rows, r.basis ∈ form.symbols.symbols
  basisVariable : ∀ r ∈ t.rows, r.basisVariable = form.symbols.name r.basis
  basisCost : ∀ r ∈ t.rows, r.basisCost = form.costs.getD r.basis.index 0

namespace Fits

variable {form : StandardForm α} {t u : Tableau α}

theorem of_bare (h : t.Fits form) (same : t.bare = u.bare) : u.Fits form := by
  obtain ⟨_, columns, costs, rows⟩ := bare_inj.mp same
  have kept {r : Row α} (member : r ∈ u.rows) : ∃ o ∈ t.rows, o.basis = r.basis ∧
      o.basisVariable = r.basisVariable ∧ o.basisCost = r.basisCost ∧
      o.coefficients = r.coefficients := by
    obtain ⟨o, listed, equal⟩ := exists_row_of_bare same member
    obtain ⟨_, basis, name, cost, _, coefficients⟩ := Row.bare_inj.mp equal
    exact ⟨o, listed, basis, name, cost, coefficients⟩
  refine ⟨columns ▸ h.columns, costs ▸ h.costs, ?_, ?_, ?_, ?_, ?_⟩
  · have indices := congrArg (List.map Row.index) rows
    simp only [List.map_map] at indices
    exact indices.symm.trans h.numbered
  · intro r member
    obtain ⟨o, listed, _, _, _, coefficients⟩ := kept member
    exact coefficients ▸ h.wide o listed
  · intro r member
    obtain ⟨o, listed, basis, _⟩ := kept member
    exact basis ▸ h.basis o listed
  · intro r member
    obtain ⟨o, listed, basis, name, _⟩ := kept member
    exact name ▸ basis ▸ h.basisVariable o listed
  · intro r member
    obtain ⟨o, listed, basis, _, cost, _⟩ := kept member
    exact cost ▸ basis ▸ h.basisCost o listed

theorem length_rows (h : t.Fits form) : t.rows.length = form.constraints.length := by
  simpa using congrArg List.length h.numbered

theorem rowsNumbered (h : t.Fits form) : t.RowsNumbered := by
  rw [RowsNumbered, h.numbered, h.length_rows]

theorem columnsInOrder (h : t.Fits form) : t.ColumnsInOrder := by
  rw [ColumnsInOrder, h.columns, h.costs, StandardForm.costs, SymbolTable.length_row]
  rfl

/-- Rows with different bases have different basis variables. -/
theorem basisVariables_nodup (h : t.Fits form)
    (distinct : ∀ r ∈ t.rows, ∀ o ∈ t.rows, o.basis = r.basis → o = r) :
    ((t.rows.map fun r => (r.basisVariable, r.rhs)).map Prod.fst).Nodup := by
  rw [List.map_map]
  refine List.Nodup.map_on ?_ h.rowsNumbered.rows_nodup
  intro r member o other same
  simp only [Function.comp_apply] at same
  rw [h.basisVariable r member, h.basisVariable o other] at same
  refine distinct o other r member ?_
  exact form.symbols.name_injOn (h.basis r member) (h.basis o other) same

end Fits

/-! ### The first tableau -/

theorem initialBasis?_mem {symbols : SymbolTable} {dense : List (List α)} {taken : List Symbol}
    {i : Nat} {e : StandardConstraint α} {s : Symbol}
    (found : initialBasis? symbols dense taken i e = some s) : s ∈ symbols.symbols := by
  unfold initialBasis? at found
  split at found
  · exact (symbols.symbol?_eq_some_iff.mp found).1
  · obtain ⟨t, _, known⟩ := List.mem_filterMap.mp (List.mem_of_find?_eq_some found)
    exact (symbols.symbol?_eq_some_iff.mp known).1

/-- The first row of an equation, given with its dense row and its number. -/
def Starts (form : StandardForm α) (dense : List (List α))
    (item : StandardConstraint α × List α × Nat) (r : Row α) : Prop :=
  (∃ taken, initialBasis? form.symbols dense taken item.2.2 item.1 = some r.basis) ∧
    r.index = item.2.2 ∧ r.basisVariable = form.symbols.name r.basis ∧
    r.basisCost = form.costs.getD r.basis.index 0 ∧ r.rhs = item.1.rhs ∧
    r.coefficients = item.2.1

theorem initialRows_ok {form : StandardForm α} {dense : List (List α)} {taken : List Symbol}
    {items : List (StandardConstraint α × List α × Nat)} {rows : List (Row α)}
    (made : initialRows form dense taken items = .ok rows) :
    List.Forall₂ (Starts form dense) items rows := by
  induction items generalizing taken rows with
  | nil => cases made; exact .nil
  | cons item rest ih =>
    obtain ⟨e, coefficients, i⟩ := item
    unfold initialRows at made
    cases basis : initialBasis? form.symbols dense taken i e with
    | none => simp [basis] at made
    | some s =>
      simp only [basis] at made
      cases later : initialRows form dense (taken ++ [s]) rest with
      | error _ => rw [later] at made; cases made
      | ok others =>
        rw [later] at made
        cases made
        exact .cons ⟨⟨taken, basis⟩, rfl, rfl, rfl, rfl, rfl⟩ (ih later)

/-- Every row of the first tableau comes from the equation of its number. -/
theorem initial_ok {form : StandardForm α} {t : Tableau α} (made : initial form = .ok t) :
    t.columns = form.symbols.symbols ∧ t.costs = form.costs ∧
      t.rows.map Row.index = List.range form.constraints.length ∧
      ∀ r ∈ t.rows, ∃ e, form.constraints[r.index]? = some e ∧
        Starts form form.dense (e, form.symbols.row e.lhs, r.index) r := by
  change (initialRows form form.dense [] (form.constraints.zip form.dense.zipIdx)).map _ = .ok t
    at made
  cases rows : initialRows form form.dense [] (form.constraints.zip form.dense.zipIdx) with
  | error _ =>
    rw [rows] at made
    cases made
  | ok rs =>
    have related := List.forall₂_iff_get.mp (initialRows_ok rows)
    rw [rows] at made
    cases made
    have length : rs.length = form.constraints.length := by
      rw [← related.1]
      simp [StandardForm.dense]
    have starts : ∀ i (inside : i < rs.length), ∃ e, form.constraints[i]? = some e ∧
        Starts form form.dense (e, form.symbols.row e.lhs, i) rs[i] := by
      intro i inside
      have bound : i < form.constraints.length := length ▸ inside
      refine ⟨form.constraints[i], by simp [bound], ?_⟩
      have start := related.2 i (by rw [related.1]; exact inside) inside
      simpa [StandardForm.dense] using start
    have numbered : ∀ i (inside : i < rs.length), rs[i].index = i := fun i inside =>
      (starts i inside).elim fun _ start => start.2.2.1
    refine ⟨rfl, rfl, ?_, fun r member => ?_⟩
    · apply List.ext_getElem
      · simp [length]
      · intro i inside _
        simpa using numbered i (by simpa using inside)
    · obtain ⟨i, inside, rfl⟩ := List.mem_iff_getElem.mp member
      rw [numbered i inside]
      exact starts i inside

theorem initial_fits {form : StandardForm α} {t : Tableau α} (made : initial form = .ok t) :
    t.Fits form := by
  obtain ⟨columns, costs, numbered, starts⟩ := initial_ok made
  refine ⟨columns, costs, numbered, ?_, ?_, ?_, ?_⟩
  · intro r member
    obtain ⟨e, _, _, _, _, _, _, coefficients⟩ := starts r member
    rw [coefficients, SymbolTable.length_row]
  · intro r member
    obtain ⟨e, _, ⟨taken, found⟩, _⟩ := starts r member
    exact initialBasis?_mem found
  · intro r member
    obtain ⟨e, _, _, _, name, _⟩ := starts r member
    exact name
  · intro r member
    obtain ⟨e, _, _, _, _, cost, _⟩ := starts r member
    exact cost

/-! ### Pivoting -/

/-- What pivoting did: one row was divided by the pivot element, the others were reduced by it. -/
theorem pivoted_ok {t next : Tableau α} {symbols : SymbolTable}
    (made : t.pivoted symbols = .ok next) :
    ∃ p source, t.pivot = some p ∧ t.rows[p.row]? = some source ∧
      (p.element == 0) = false ∧ Scalar.isFinite p.element = true ∧
      next = { t with
        iteration := t.iteration + 1
        rows := t.rows.map fun r =>
          if r.index = p.row then t.normalizedRow symbols p source
          else eliminatedRow p (t.normalizedRow symbols p source) r
        zj := []
        relativeCosts := []
        pivot := none } := by
  unfold pivoted at made
  split at made
  · cases made
  · rename_i p pivot
    split at made
    · cases made
    · rename_i source found
      split at made
      · cases made
      · rename_i usable
        simp only [Bool.or_eq_true, not_or, Bool.not_eq_true', Bool.not_eq_false,
          Bool.not_eq_true] at usable
        exact ⟨p, source, pivot, found, usable.1, usable.2, (Except.ok.inj made).symm⟩

/-- Pivoting on a column of the standard form keeps the shape. -/
theorem Fits.pivoted {form : StandardForm α} {t next : Tableau α} (h : t.Fits form)
    {p : Pivot α} (pivot : t.pivot = some p) (column : p.column ∈ form.symbols.symbols)
    (made : t.pivoted form.symbols = .ok next) : next.Fits form := by
  obtain ⟨p', source, pivot', found, _, _, rfl⟩ := pivoted_ok made
  cases Option.some.inj (pivot.symm.trans pivot')
  have wide := h.wide source (List.mem_of_getElem? found)
  refine ⟨h.columns, h.costs, ?_, ?_, ?_, ?_, ?_⟩
  · rw [← h.numbered, List.map_map]
    refine List.map_congr_left fun r _ => ?_
    simp only [Function.comp_apply]
    split
    · rename_i same; exact same.symm
    · rfl
  · refine List.forall_mem_map.mpr fun r member => ?_
    split
    · simp [normalizedRow, wide]
    · simp [eliminatedRow, normalizedRow, wide, h.wide r member]
  · refine List.forall_mem_map.mpr fun r member => ?_
    split
    · exact column
    · exact h.basis r member
  · refine List.forall_mem_map.mpr fun r member => ?_
    split
    · rfl
    · exact h.basisVariable r member
  · refine List.forall_mem_map.mpr fun r member => ?_
    split
    · exact congrArg (·.getD p.column.index 0) h.costs
    · exact h.basisCost r member

end Tableau

end Simplex
