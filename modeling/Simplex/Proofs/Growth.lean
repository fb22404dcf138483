import Simplex.Proofs.Accesses
import Simplex.Proofs.Double
import Simplex.Proofs.Fields
import Mathlib.Data.List.Chain

/-!
Growth of a history. A tableau is made without marks, and only a look for a pivot sets them. So the
tableaux of a session are a chain of pivots, numbered from one, and a call marks the last of them or
adds to them, whatever the tolerance is.
-/
namespace Simplex

variable {α : Type}

namespace Session

variable {s mid next : Session α}

theorem tableaux_of_iterating {h : History α} (phase : s.phase = .iterating h) :
    s.tableaux = h.earlier.reverse ++ [h.latest] := by
  simp [tableaux, history?, phase, History.tableaux]

theorem tableaux_of_standardForm?_eq_none (none : s.standardForm? = none) : s.tableaux = [] := by
  rw [standardForm?, Option.map_eq_none_iff] at none
  simp [tableaux, none]

/-- Every tableau is still there, the last one perhaps with other marks. -/
def Keeps (s next : Session α) : Prop :=
  ∀ k t, s.tableaux[k]? = some t → ∃ u, next.tableaux[k]? = some u ∧ u.bare = t.bare ∧
    (k + 1 < s.tableaux.length → u = t)

namespace Keeps

theorem refl (s : Session α) : s.Keeps s := fun _ t found => ⟨t, found, rfl, fun _ => rfl⟩

theorem trans (first : s.Keeps mid) (second : mid.Keeps next) : s.Keeps next := by
  intro k t found
  obtain ⟨u, between, same, equal⟩ := first k t found
  obtain ⟨v, last, again, unchanged⟩ := second k u between
  refine ⟨v, last, again.trans same, ?_⟩
  intro inner
  obtain ⟨w, later, _⟩ := first (k + 1) _ (List.getElem?_eq_getElem inner)
  rw [unchanged (List.getElem?_eq_some_iff.mp later).1, equal inner]

theorem of_nil (none : s.tableaux = []) : s.Keeps next := by
  intro k t found
  rw [none] at found
  cases found

/-- The last tableau was marked, and others may have come behind it. -/
theorem of_marked {before : List (Tableau α)} {t u : Tableau α} (same : u.bare = t.bare)
    (old : s.tableaux = before ++ [t]) (after : List (Tableau α))
    (new : next.tableaux = before ++ u :: after) : s.Keeps next := by
  intro k v found
  rw [old] at found ⊢
  rw [new]
  by_cases inner : k < before.length
  · rw [List.getElem?_append_left inner] at found ⊢
    exact ⟨v, found, rfl, fun _ => rfl⟩
  · have last : k = before.length := by
      have inside := (List.getElem?_eq_some_iff.mp found).1
      rw [List.length_append, List.length_singleton] at inside
      omega
    subst last
    rw [List.getElem?_concat_length] at found
    cases found
    refine ⟨u, by simp, same, ?_⟩
    intro further
    simp at further

/-- The tableaux before the last one stay as they are. -/
theorem take (h : s.Keeps next) {n : Nat} (length : s.tableaux.length = n + 1) :
    s.tableaux.take n = next.tableaux.take n := by
  apply List.ext_getElem?
  intro i
  by_cases inside : i < n
  · rw [List.getElem?_take_of_lt inside, List.getElem?_take_of_lt inside]
    obtain ⟨u, found, _, same⟩ := h i _ (List.getElem?_eq_getElem (by omega))
    rw [found, same (by omega), List.getElem?_eq_getElem]
  · rw [List.getElem?_eq_none (by simp; omega), List.getElem?_eq_none (by simp; omega)]

end Keeps

end Session

variable [Scalar α]

namespace Tableau

variable {form : StandardForm α} {t u v next : Tableau α} {tolerance : α} {p : Pivot α}

/-! ### Tableaux without marks -/

theorem initialRows_bare {dense : List (List α)} {taken : List Symbol}
    {items : List (StandardConstraint α × List α × Nat)} {rows : List (Row α)}
    (made : initialRows form dense taken items = .ok rows) : rows.map Row.bare = rows := by
  induction items generalizing taken rows with
  | nil => cases made; rfl
  | cons item rest ih =>
    obtain ⟨e, coefficients, i⟩ := item
    simp only [initialRows] at made
    cases basis : initialBasis? form.symbols dense taken i e with
    | none => simp [basis] at made
    | some s =>
      cases later : initialRows form dense (taken ++ [s]) rest with
      | error _ => simp [basis, later, Except.map] at made
      | ok others =>
        simp only [basis, later, Except.map, Except.ok.injEq] at made
        subst made
        rw [List.map_cons, ih later]
        rfl

theorem initial_plain (made : initial form = .ok t) : t.iteration = 1 ∧ t.bare = t := by
  simp only [initial] at made
  cases rows : initialRows form form.dense [] (form.constraints.zip form.dense.zipIdx) with
  | error _ =>
    simp only [StandardForm.dense] at rows
    simp [rows, Except.map] at made
  | ok rs =>
    have plain := initialRows_bare rows
    simp only [StandardForm.dense] at rows
    simp only [rows, Except.map, Except.ok.injEq] at made
    subst made
    exact ⟨rfl, by simp [bare, plain]⟩

theorem bare_pivoted (made : t.pivoted form.symbols = .ok next) : next.bare = next := by
  obtain ⟨p, source, _, _, _, _, rfl⟩ := pivoted_ok made
  simp only [bare, List.map_map, Tableau.mk.injEq, true_and, and_true]
  apply List.map_congr_left
  intro r _
  by_cases own : r.index = p.row <;> simp [own, Row.bare, normalizedRow, eliminatedRow]

/-- A look for a pivot flags the row that it found, and no other one. -/
theorem isPivotRow_of_selected (chosen : t.selectPivot tolerance = (u, .ok (.pivot p))) {r : Row α}
    (member : r ∈ u.rows) : r.isPivotRow = true ↔ r.index = p.row := by
  obtain ⟨_, _, leaving, _, shape, rfl⟩ := selectPivot_ok chosen
  obtain ⟨marked, _, rfl⟩ := List.mem_map.mp member
  rw [shape]
  simp

/-! ### The tableaux of a history -/

/-- The tableau with a number: it has the columns `a1`, `a2`, … and the costs of the standard form,
    and its rows stand at their numbers with an entry for each column. -/
structure Numbered (form : StandardForm α) (number : Nat) (t : Tableau α) : Prop where
  iteration : t.iteration = number
  columns : t.columns = (List.range form.symbols.size).map Symbol.mk
  costs : t.costs = form.costs ∧ t.costs.length = form.symbols.size
  rows : t.rows.length = form.constraints.length
  row : ∀ (i : Nat) (r : Row α), t.rows[i]? = some r → r.index = i ∧
    r.coefficients.length = form.symbols.size
  inRange : t.InRange form

/-- A tableau was evaluated, its pivot is the one that was chosen on it, and pivoting made the next
    tableau, which has perhaps been marked since. -/
structure PivotsTo (form : StandardForm α) (tolerance : α) (p : Pivot α) (t next : Tableau α) :
    Prop where
  evaluated : t.isEvaluated = true
  recorded : t.pivot = some p
  chosen : t.bare.evaluate.selectPivot tolerance = (t, .ok (.pivot p))
  inside : p.row < t.rows.length
  flagged : ∀ (i : Nat) (r : Row α), t.rows[i]? = some r → (r.isPivotRow = true ↔ i = p.row)
  made : t.pivoted form.symbols = .ok next.bare

theorem Fits.numbered_of_inside [IsStrictOrder α (· < ·)] (h : t.Fits form)
    (column : t.PivotInside form) : t.Numbered form t.iteration where
  iteration := rfl
  columns := h.columns
  costs := by
    refine ⟨h.costs, ?_⟩
    rw [h.costs, StandardForm.costs, SymbolTable.length_row]
  rows := h.length_rows
  row i r found := ⟨h.rowsNumbered.index_of_getElem? found, h.wide r (List.mem_of_getElem? found)⟩
  inRange := h.inRange column

theorem Fits.pivotsTo (h : t.Fits form) (plain : t.bare = t)
    (chosen : t.evaluate.selectPivot tolerance = (u, .ok (.pivot p)))
    (made : u.pivoted form.symbols = .ok next) (same : v.bare = next.bare) :
    u.PivotsTo form tolerance p v := by
  have unmarked : u.bare = t := (bare_of_selected chosen).trans plain
  have fits : u.Fits form := h.of_bare (bare_of_selected chosen).symm
  obtain ⟨evaluated, _, leaving, _, _, shape⟩ := selectPivot_ok chosen
  have recorded : u.pivot = some p := by rw [shape]
  obtain ⟨q, source, again, found, _⟩ := pivoted_ok made
  obtain rfl : p = q := Option.some.inj (recorded.symm.trans again)
  refine ⟨?_, recorded, ?_, ?_, ?_, ?_⟩
  · rw [shape]
    exact evaluated
  · rw [unmarked]
    exact chosen
  · exact (List.getElem?_eq_some_iff.mp found).1
  · intro i r row
    rw [isPivotRow_of_selected chosen (List.mem_of_getElem? row),
      fits.rowsNumbered.index_of_getElem? row]
  · rw [made, same, bare_pivoted made]

end Tableau

/-! ### Reached tableaux -/

namespace Reached

variable {form : StandardForm α} {tolerance : α} {earlier : List (Tableau α)} {t u : Tableau α}

theorem bare_eq (h : Reached form tolerance earlier t) : t.bare = t := by
  cases h with
  | initial made => exact (Tableau.initial_plain made).2
  | pivoted _ _ made => exact Tableau.bare_pivoted made

theorem pivot_eq_none (h : Reached form tolerance earlier t) : t.pivot = none := by
  rw [← h.bare_eq]
  rfl

theorem iteration_eq (h : Reached form tolerance earlier t) : t.iteration = earlier.length + 1 := by
  induction h with
  | initial made => exact (Tableau.initial_plain made).1
  | pivoted reached chosen made ih =>
    obtain ⟨_, _, _, _, _, _, rfl⟩ := Tableau.pivoted_ok made
    have same := (Tableau.bare_inj.mp (Tableau.bare_of_selected chosen)).1
    rw [List.length_cons, ← ih, ← same]

variable [IsStrictOrder α (· < ·)]

/-- Pivoting keeps the shape with every tolerance: the pivot is in a column. -/
theorem fits (h : Reached form tolerance earlier t) : t.Fits form := by
  induction h with
  | initial made => exact Tableau.initial_fits made
  | pivoted reached chosen made ih =>
    have inspected := ih.of_bare (Tableau.bare_of_selected chosen).symm
    have column := ih.pivotInside_of_selected reached.pivot_eq_none chosen
    obtain ⟨p, _, recorded, _⟩ := Tableau.pivoted_ok made
    exact inspected.pivoted recorded (column p recorded) made

theorem earlier_inside (h : Reached form tolerance earlier t) :
    ∀ v ∈ earlier, v.PivotInside form := by
  induction h with
  | initial => simp
  | pivoted reached chosen _ ih =>
    rw [List.forall_mem_cons]
    exact ⟨reached.fits.pivotInside_of_selected reached.pivot_eq_none chosen, ih⟩

/-- Every tableau of a history that was reached has its number. -/
theorem numbered (h : Reached form tolerance earlier t) (same : u.bare = t.bare)
    (column : u.PivotInside form) {k : Nat} {v : Tableau α}
    (found : (earlier.reverse ++ [u])[k]? = some v) : v.Numbered form (k + 1) := by
  obtain ⟨plain, reached, equal⟩ := h.getElem? same found
  have inside := (List.getElem?_eq_some_iff.mp found).1
  have number : v.iteration = k + 1 := by
    rw [(Tableau.bare_inj.mp equal).1, reached.iteration_eq]
    have bound : min k (earlier.reverse ++ [u]).length = k := min_eq_left inside.le
    rw [List.length_reverse, List.length_take, bound]
  have pivot : v.PivotInside form := by
    have member := List.mem_of_getElem? found
    rw [List.mem_append, List.mem_reverse, List.mem_singleton] at member
    rcases member with before | rfl
    · exact h.earlier_inside v before
    · exact column
  rw [← number]
  exact (reached.fits.of_bare equal.symm).numbered_of_inside pivot

/-- A history that was reached is a chain of pivots, with marks on its last tableau or without. -/
theorem chain (h : Reached form tolerance earlier t) (same : u.bare = t.bare) :
    (earlier.reverse ++ [u]).IsChain fun before after =>
      ∃ p, before.PivotsTo form tolerance p after := by
  induction h generalizing u with
  | initial => exact .singleton _
  | @pivoted earlier t v next p reached chosen made ih =>
    rw [List.reverse_cons, List.append_assoc]
    have before := ih (Tableau.bare_of_selected chosen)
    refine List.isChain_append_cons_cons.mpr ⟨before, ?_, .singleton _⟩
    exact ⟨p, reached.fits.pivotsTo reached.bare_eq chosen made same⟩

end Reached

namespace Session

/-! ### Calls -/

variable {s mid next : Session α}

theorem keeps_frame (s : Session α) : s.Keeps s.frame.1 := by
  cases phase : s.phase with
  | building =>
    apply Keeps.of_nil
    simp [tableaux, history?, phase]
  | iterating | optimal | unbounded | framingFailed | calculationFailed =>
    simp only [frame, phase]
    exact .refl s

theorem keeps_step (s : Session α) : s.Keeps s.step.1 := by
  cases phase : s.phase with
  | building | optimal | unbounded | framingFailed | calculationFailed =>
    simp only [step, phase]
    exact .refl s
  | iterating h =>
    have old := tableaux_of_iterating phase
    cases advanced : h.advance s.tolerance with
    | mk made result =>
      obtain ⟨u, choice, chosen, makes⟩ := History.advance_ok advanced
      have same := Tableau.bare_of_selected chosen
      simp only [step, phase, advanced]
      cases result with
      | error e =>
        obtain rfl := makes
        exact .of_marked same old [] rfl
      | ok found =>
        cases found with
        | optimal | unbounded =>
          obtain ⟨_, rfl⟩ := makes
          exact .of_marked same old [] rfl
        | pivoted iteration =>
          obtain ⟨_, made, _, _, _, _, _, rfl⟩ := makes
          refine .of_marked same old [made] ?_
          simp [tableaux, history?, History.tableaux]

/-- No call changes a tableau, except for marks on the last one. -/
theorem keeps_call (s : Session α) (c : Call) : s.Keeps (s.call c) := by
  have kept : Kept fun later : Session α => s.Keeps later :=
    ⟨fun {later} h => h.trans later.keeps_frame, fun {later} h => h.trans later.keeps_step⟩
  exact kept.call (.refl s) c

/-- The tableaux of a lawful session with a standard form: pivots led to the last of them, on which
    a pivot was perhaps looked for if the session has stopped. -/
theorem Lawful.grown {p : Problem α} {tolerance : α} {form : StandardForm α}
    (h : s.Lawful p tolerance) (known : s.standardForm? = some form) :
    ∃ earlier t u, Reached form tolerance earlier t ∧ s.tableaux = earlier.reverse ++ [u] ∧
      (s.state = .iterating → u = t) ∧
      (u = t ∨ ∃ choice, t.evaluate.selectPivot tolerance = (u, choice)) := by
  obtain ⟨problem, tol, phase⟩ := s
  obtain ⟨_, _, history⟩ := h
  cases phase with
  | building | framingFailed => cases known
  | iterating h =>
    cases known
    exact ⟨h.earlier, h.latest, h.latest, history.2, rfl, fun _ => rfl, .inl rfl⟩
  | optimal h | unbounded h | calculationFailed h =>
    cases known
    obtain ⟨_, t, choice, reached, chosen, _⟩ := history
    refine ⟨h.earlier, t, h.latest, reached, rfl, ?_, .inr ⟨choice, chosen⟩⟩
    intro iterating
    cases iterating

/-- Every tableau of a lawful session has the shape of the standard form. -/
theorem Lawful.fits [IsStrictOrder α (· < ·)] {p : Problem α} {tolerance : α}
    {form : StandardForm α} (h : s.Lawful p tolerance) (made : StandardForm.ofProblem p = .ok form) {t : Tableau α}
    (member : t ∈ s.tableaux) : t.Fits form := by
  obtain ⟨k, found⟩ := List.mem_iff_getElem?.mp member
  rcases h.tableaux_eq with none | ⟨own, earlier, last, u, known, reached, same, all⟩
  · rw [none] at found
    cases found
  · cases Except.ok.inj (made.symm.trans known)
    rw [all] at found
    obtain ⟨plain, before, equal⟩ := reached.getElem? same found
    exact before.fits.of_bare equal.symm

end Session

/-- The history of a session grows at its end only, whatever the numbers are and whatever is called:
    its tableaux are numbered, each is what pivoting made of the one before it, up to the marks that
    evaluating and looking for a pivot set on it, and every access to them is in range. -/
theorem history_grows (p : Problem Float) (tolerance : Float) (calls : List Session.Call)
    (s : Session Float) (called : (Session.ofProblem p tolerance).after calls = s) :
    (∀ form, s.standardForm? = some form →
      s.tableaux ≠ [] ∧
      (∀ (k : Nat) (t : Tableau Float), s.tableaux[k]? = some t → t.Numbered form (k + 1)) ∧
      (s.tableaux.IsChain fun t next => ∃ pivot, t.PivotsTo form tolerance pivot next) ∧
      (s.state = .iterating → ∃ last, s.tableaux.getLast? = some last ∧ last.bare = last)) ∧
    (s.standardForm? = none → s.tableaux = []) ∧
    (∀ h, s.phase = .iterating h → Checked.advance h tolerance = some (h.advance tolerance)) ∧
    ∀ c, s.Keeps (s.call c) := by
  subst called
  have fresh : (Session.ofProblem p tolerance).Lawful p tolerance := .ofProblem
  have lawful := fresh.after calls
  refine ⟨?_, Session.tableaux_of_standardForm?_eq_none, ?_, Session.keeps_call _⟩
  · intro form known
    obtain ⟨earlier, t, u, reached, all, iterating, marked⟩ := lawful.grown known
    have same : u.bare = t.bare := by
      rcases marked with rfl | ⟨choice, chosen⟩
      · rfl
      · exact Tableau.bare_of_selected chosen
    have inside : u.PivotInside form := by
      rcases marked with rfl | ⟨choice, chosen⟩
      · intro q recorded
        rw [reached.pivot_eq_none] at recorded
        cases recorded
      · exact reached.fits.pivotInside_of_selected reached.pivot_eq_none chosen
    rw [all]
    refine ⟨by simp, fun k v found => reached.numbered same inside found, reached.chain same, ?_⟩
    intro state
    refine ⟨u, List.getLast?_concat, ?_⟩
    rw [iterating state]
    exact reached.bare_eq
  · intro h phase
    have history := lawful.history
    rw [phase] at history
    exact History.checked_advance history.2.fits history.2.pivot_eq_none

/-- Maximize `3x + 2y` where `x + y` is at most four and `x` is at most three. -/
def wedge : Problem Float where
  direction := .maximize
  objective := [{ coefficient := 3, name := "x" }, { coefficient := 2, name := "y" }]
  objectiveConstant := 0
  constraints := [⟨[{ coefficient := 1, name := "x" }, { coefficient := 1, name := "y" }], .le, 4⟩,
    ⟨[{ coefficient := 1, name := "x" }], .le, 3⟩]

/-- A run and a step more on a session that stopped: two pivots, three tableaux. -/
theorem wedge_grows : ∃ s, (Session.ofProblem wedge 1e-9).after [.frame, .run 9, .step] = s ∧
    ∃ form first second third p q, s.standardForm? = some form ∧
      s.tableaux = [first, second, third] ∧ first.PivotsTo form 1e-9 p second ∧
      second.PivotsTo form 1e-9 q third ∧ third.Numbered form 3 ∧ s.Keeps (s.call .frame) := by
  refine ⟨_, rfl, ?_⟩
  have grown := history_grows wedge 1e-9 [.frame, .run 9, .step] _ rfl
  have three : ((Session.ofProblem wedge 1e-9).after [.frame, .run 9, .step]).tableaux.length = 3 :=
    by decide +kernel
  obtain ⟨first, second, third, all⟩ := List.length_eq_three.mp three
  cases known : ((Session.ofProblem wedge 1e-9).after [.frame, .run 9, .step]).standardForm? with
  | none =>
    rw [grown.2.1 known] at all
    cases all
  | some form =>
    obtain ⟨_, numbered, chain, _⟩ := grown.1 form known
    rw [all] at numbered chain
    simp only [List.isChain_cons_cons] at chain
    obtain ⟨⟨p, first⟩, ⟨q, second⟩, _⟩ := chain
    exact ⟨form, _, _, _, p, q, rfl, all, first, second, numbered 2 third rfl, grown.2.2.2 .frame⟩

/-- Once a tableau is evaluated, it differs from what pivoting made: pivoting sets no marks. -/
theorem capped_successor_marked :
    ∃ s, (Session.ofProblem capped 1e-9).after [.frame, .step, .step] = s ∧
      ∃ form t next, s.standardForm? = some form ∧ s.tableaux[0]? = some t ∧
        s.tableaux[1]? = some next ∧ t.pivoted form.symbols ≠ .ok next := by
  refine ⟨_, rfl, ?_⟩
  have two : ((Session.ofProblem capped 1e-9).after [.frame, .step, .step]).tableaux.map
      (fun t => t.zj.length) = [2, 2] := by decide +kernel
  have framed : ((Session.ofProblem capped 1e-9).after
      [.frame, .step, .step]).standardForm?.isSome = true := by decide +kernel
  obtain ⟨form, known⟩ := Option.isSome_iff_exists.mp framed
  have count := congrArg List.length two
  rw [List.length_map] at count
  obtain ⟨t, next, all⟩ := List.length_eq_two.mp count
  rw [all] at two
  refine ⟨form, t, next, known, by rw [all]; rfl, by rw [all]; rfl, ?_⟩
  intro made
  have plain := congrArg Tableau.zj (Tableau.bare_pivoted made)
  have marked : next.zj.length = 2 := by simpa using (List.cons.inj (List.cons.inj two).2).1
  rw [← plain] at marked
  cases marked

end Simplex
