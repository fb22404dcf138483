import Simplex.Tableau.Pivot
import Simplex.Proofs.Exact

/-!
Choosing a pivot. The scan over the columns finds the least relative cost, the scan over the rows
finds the least positive ratio, and `selectPivot_ok` lists what a look for a pivot can find.
-/
namespace Simplex.Tableau

variable {α : Type} [Scalar α]

/-- The relative cost of a column. -/
def relativeCost (t : Tableau α) (s : Symbol) : α := t.relativeCosts.getD s.index 0

/-- The rows of a tableau with their ratios for a column. -/
def withRatios (t : Tableau α) (s : Symbol) (tolerance : α) : List (Row α) :=
  t.rows.map fun r => Row.withRatio r s tolerance

/-- What looking for a pivot found, and the tableau that it leaves. -/
theorem selectPivot_ok {t u : Tableau α} {tolerance : α} {choice : PivotChoice α}
    (chosen : t.selectPivot tolerance = (u, .ok choice)) :
    t.isEvaluated = true ∧
      match choice with
      | .optimal => t.enteringColumn? tolerance = none ∧ u = t
      | .unbounded s =>
        t.enteringColumn? tolerance = some s ∧ leavingRow? (t.withRatios s tolerance) = none ∧
          u = { t with rows := t.withRatios s tolerance }
      | .pivot p =>
        t.enteringColumn? tolerance = some p.column ∧
          ∃ leaving, leavingRow? (t.withRatios p.column tolerance) = some leaving ∧
            p = ⟨leaving.index, p.column, leaving.coefficient p.column⟩ ∧
            u = { t with
              rows := (t.withRatios p.column tolerance).map fun r =>
                { r with isPivotRow := r.index == leaving.index }
              pivot := some p } := by
  unfold selectPivot at chosen
  cases evaluated : t.isEvaluated
  · simp [evaluated] at chosen
  · refine ⟨rfl, ?_⟩
    rw [evaluated] at chosen
    cases entering : t.enteringColumn? tolerance with
    | none =>
      simp only [entering, Bool.not_true, Bool.false_eq_true, ↓reduceIte, Prod.mk.injEq,
        Except.ok.injEq] at chosen
      obtain ⟨rfl, rfl⟩ := chosen
      exact ⟨rfl, rfl⟩
    | some s =>
      cases found : leavingRow? (t.withRatios s tolerance) with
      | none =>
        have found' := found
        unfold withRatios at found'
        simp only [entering, found', Bool.not_true, Bool.false_eq_true, ↓reduceIte, Prod.mk.injEq,
          Except.ok.injEq] at chosen
        obtain ⟨rfl, rfl⟩ := chosen
        exact ⟨rfl, found, rfl⟩
      | some leaving =>
        have found' := found
        unfold withRatios at found'
        simp only [entering, found', Bool.not_true, Bool.false_eq_true, ↓reduceIte, Prod.mk.injEq,
          Except.ok.injEq] at chosen
        obtain ⟨rfl, rfl⟩ := chosen
        exact ⟨rfl, leaving, found, rfl, rfl⟩

/-- The ratio of a row counts: it is positive and finite. -/
def Counts (r : Row α) (ratio : α) : Prop :=
  r.ratio = some ratio ∧ 0 < ratio ∧ Scalar.isFinite ratio = true

/-- A row becomes the best one, below the one before; or it does not count, or is not below. -/
private theorem better_cases (best : Option (Row α × α)) (r : Row α) :
    (∃ q, r.ratio = some q ∧ 0 < q ∧ better best r = some (r, q) ∧
        ∀ b least, best = some (b, least) → q < least) ∨
      (better best r = best ∧ ∀ q, Counts r q →
        ∃ b least, best = some (b, least) ∧ ¬ q < least) := by
  cases ratio : r.ratio with
  | none =>
    refine .inr ⟨by simp [better, ratio], fun q counts => ?_⟩
    cases ratio.symm.trans counts.1
  | some q =>
    cases best with
    | none =>
      by_cases accepted : 0 < q ∧ Scalar.isFinite q = true
      · exact .inl ⟨q, rfl, accepted.1, by simp [better, ratio, accepted], by simp⟩
      · refine .inr ⟨by simp [better, ratio, accepted], fun x counts => ?_⟩
        cases ratio.symm.trans counts.1
        exact absurd counts.2 accepted
    | some b =>
      obtain ⟨b, least⟩ := b
      by_cases accepted : 0 < q ∧ q < least
      · refine .inl ⟨q, rfl, accepted.1, by simp [better, ratio, accepted], ?_⟩
        rintro _ _ ⟨⟩
        exact accepted.2
      · refine .inr ⟨by simp [better, ratio, accepted], fun x counts => ?_⟩
        cases ratio.symm.trans counts.1
        exact ⟨b, least, rfl, fun below => accepted ⟨counts.2.1, below⟩⟩

section Scan

variable [IsStrictOrder α (· < ·)]

/-- Among the columns seen, none is below the least relative cost; a column that enters has it, and
    it is below minus the tolerance. -/
private def Least (cost : Symbol → α) (tolerance : α) (seen : List Symbol) :
    α × Option Symbol → Prop
  | (least, entering) => (∀ s ∈ seen, ¬ cost s < least) ∧
      match entering with
      | none => least = -tolerance
      | some e => least = cost e ∧ e ∈ seen ∧ cost e < -tolerance

private theorem least_step {cost : Symbol → α} {tolerance : α} {seen : List Symbol}
    {state : α × Option Symbol} (h : Least cost tolerance seen state) (s : Symbol) :
    Least cost tolerance (seen ++ [s])
      (if cost s < state.1 then (cost s, some s) else (state.1, state.2)) := by
  obtain ⟨least, entering⟩ := state
  obtain ⟨above, marked⟩ := h
  by_cases lower : cost s < least
  · rw [if_pos lower]
    refine ⟨fun c member below => ?_, rfl, by simp, ?_⟩
    · rcases List.mem_append.mp member with earlier | last
      · exact above c earlier (IsTrans.trans _ _ _ below lower)
      · rw [List.mem_singleton.mp last] at below
        exact Std.Irrefl.irrefl _ below
    · cases entering with
      | none => exact marked ▸ lower
      | some e => exact IsTrans.trans _ _ _ (marked.1 ▸ lower) marked.2.2
  · rw [if_neg lower]
    refine ⟨fun c member => ?_, ?_⟩
    · rcases List.mem_append.mp member with earlier | last
      · exact above c earlier
      · rw [List.mem_singleton.mp last]; exact lower
    · cases entering with
      | none => exact marked
      | some e => exact ⟨marked.1, List.mem_append_left _ marked.2.1, marked.2.2⟩

private theorem least_foldl {cost : Symbol → α} {tolerance : α} {seen : List Symbol}
    {state : α × Option Symbol} (h : Least cost tolerance seen state) (columns : List Symbol) :
    Least cost tolerance (seen ++ columns)
      (columns.foldl (fun state s =>
        if cost s < state.1 then (cost s, some s) else (state.1, state.2)) state) := by
  induction columns generalizing seen state with
  | nil => simpa using h
  | cons s rest ih => simpa using ih (least_step h s)

/-- The column that enters has the least relative cost, and it is below minus the tolerance; if none
    enters, no relative cost is. -/
theorem enteringColumn?_spec {t : Tableau α} (evaluated : t.isEvaluated = true) (tolerance : α) :
    match t.enteringColumn? tolerance with
    | none => ∀ s ∈ t.columns, ¬ t.relativeCost s < -tolerance
    | some e => e ∈ t.columns ∧ t.relativeCost e < -tolerance ∧
        ∀ s ∈ t.columns, ¬ t.relativeCost s < t.relativeCost e := by
  have start : Least t.relativeCost tolerance [] (-tolerance, none) := ⟨by simp, rfl⟩
  have scanned := least_foldl start t.columns
  have result : t.enteringColumn? tolerance = (t.columns.foldl (fun state s =>
      if t.relativeCost s < state.1 then (t.relativeCost s, some s) else (state.1, state.2))
      (-tolerance, none)).2 := by
    unfold enteringColumn?
    rw [if_pos evaluated]
    rfl
  rw [result]
  generalize t.columns.foldl _ _ = state at scanned
  obtain ⟨least, entering⟩ := state
  obtain ⟨above, marked⟩ := scanned
  cases entering with
  | none => exact marked ▸ above
  | some e => exact ⟨marked.2.1, marked.2.2, marked.1 ▸ above⟩

/-- Among the rows seen, no ratio that counts is below that of the best one; without a best one, no
    ratio counts. -/
private def Best (seen : List (Row α)) : Option (Row α × α) → Prop
  | none => ∀ r ∈ seen, ∀ q, ¬ Counts r q
  | some (b, least) => b ∈ seen ∧ b.ratio = some least ∧ 0 < least ∧
      ∀ r ∈ seen, ∀ q, Counts r q → ¬ q < least

private theorem best_step {seen : List (Row α)} {best : Option (Row α × α)} (h : Best seen best)
    (r : Row α) : Best (seen ++ [r]) (better best r) := by
  rcases better_cases best r with ⟨q, ratio, positive, taken, lower⟩ | ⟨kept, skipped⟩
  · rw [taken]
    refine ⟨by simp, ratio, positive, fun o member x counts below => ?_⟩
    rcases List.mem_append.mp member with earlier | last
    · cases best with
      | none => exact h o earlier x counts
      | some b =>
        exact h.2.2.2 o earlier x counts (IsTrans.trans _ _ _ below (lower b.1 b.2 rfl))
    · rw [List.mem_singleton.mp last] at counts
      cases ratio.symm.trans counts.1
      exact Std.Irrefl.irrefl q below
  · rw [kept]
    cases best with
    | none =>
      intro o member q counts
      rcases List.mem_append.mp member with earlier | last
      · exact h o earlier q counts
      · rw [List.mem_singleton.mp last] at counts
        obtain ⟨_, _, absent, _⟩ := skipped q counts
        cases absent
    | some b =>
      obtain ⟨listed, own, positive, above⟩ := h
      refine ⟨List.mem_append_left _ listed, own, positive, fun o member q counts => ?_⟩
      rcases List.mem_append.mp member with earlier | last
      · exact above o earlier q counts
      · rw [List.mem_singleton.mp last] at counts
        obtain ⟨_, _, same, notBelow⟩ := skipped q counts
        cases same
        exact notBelow

private theorem best_foldl {seen : List (Row α)} {best : Option (Row α × α)} (h : Best seen best)
    (rows : List (Row α)) : Best (seen ++ rows) (rows.foldl better best) := by
  induction rows generalizing seen best with
  | nil => simpa using h
  | cons r rest ih => simpa using ih (best_step h r)

/-- The row that leaves has the least ratio that counts; if none leaves, no ratio counts. -/
theorem leavingRow?_spec (rows : List (Row α)) :
    match leavingRow? rows with
    | none => ∀ r ∈ rows, ∀ q, ¬ Counts r q
    | some b => b ∈ rows ∧ ∃ least, b.ratio = some least ∧ 0 < least ∧
        ∀ r ∈ rows, ∀ q, Counts r q → ¬ q < least := by
  have start : Best ([] : List (Row α)) none := by simp [Best]
  have scanned : Best rows (rows.foldl better none) := best_foldl start rows
  unfold leavingRow?
  generalize rows.foldl better none = best at scanned
  cases best with
  | none => exact scanned
  | some b => exact ⟨scanned.1, b.2, scanned.2.1, scanned.2.2.1, scanned.2.2.2⟩

end Scan

end Simplex.Tableau
