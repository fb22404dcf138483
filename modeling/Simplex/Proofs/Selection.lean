import Simplex.Proofs.Accesses
import Simplex.Proofs.Overflow

/-!
The pivot that is found on doubles. Both scans look for the first least number of a list: the column
that enters has the first least relative cost, the row that leaves the first least ratio that is
positive and finite. NaN is not below anything, so the scans pass over it.
-/
namespace Simplex

/-! ### The first least number -/

section Least

variable {β : Type} {f : β → Float} {xs : List β}

/-- An item of a list where a function is least, and the first of those. -/
def FirstLeast (f : β → Float) (xs : List β) (x : β) : Prop :=
  ∃ before after, xs = before ++ x :: after ∧ (∀ y ∈ before, f x < f y) ∧ ∀ y ∈ after, f x ≤ f y

/-- The item that a scan for the least number ends with. -/
def leastBy (f : β → Float) (xs : List β) : Option β :=
  xs.foldl (fun least x =>
    match least with
    | none => some x
    | some e => if f x < f e then some x else some e) none

theorem leastBy_concat (xs : List β) (x : β) : leastBy f (xs ++ [x]) =
    match leastBy f xs with
    | none => some x
    | some e => if f x < f e then some x else some e := by
  simp [leastBy]

theorem FirstLeast.mem {x : β} (h : FirstLeast f xs x) : x ∈ xs := by
  obtain ⟨before, after, rfl, _⟩ := h
  simp

/-- Below the first least number is what is below all. -/
theorem FirstLeast.lt_of_lt {e x : β} (h : FirstLeast f xs e) (lower : f x < f e) :
    ∀ y ∈ xs, f x < f y := by
  obtain ⟨before, after, rfl, earlier, later⟩ := h
  intro y member
  rcases List.mem_append.mp member with before | rest
  · exact IsTrans.trans _ _ _ lower (earlier y before)
  · rcases List.mem_cons.mp rest with rfl | after
    · exact lower
    · exact Double.lt_of_lt_of_le lower (later y after)

/-- A scan over numbers ends with the first least one, if there are any. -/
theorem leastBy_spec (numbers : ∀ y ∈ xs, (f y).isNaN = false) :
    match leastBy f xs with
    | none => xs = []
    | some x => FirstLeast f xs x := by
  induction xs using List.reverseRecOn with
  | nil => rfl
  | append_singleton xs x ih =>
    have scanned := ih fun y member => numbers y (List.mem_append_left _ member)
    rw [leastBy_concat]
    cases found : leastBy f xs with
    | none =>
      rw [found] at scanned
      exact ⟨[], [], by rw [scanned, List.nil_append], by simp, by simp⟩
    | some e =>
      rw [found] at scanned
      by_cases lower : f x < f e
      · simp only [lower, if_true]
        exact ⟨xs, [], rfl, scanned.lt_of_lt lower, by simp⟩
      · simp only [lower, if_false]
        obtain ⟨before, after, split, earlier, later⟩ := scanned
        refine ⟨before, after ++ [x], by rw [split]; simp, earlier, fun y member => ?_⟩
        rcases List.mem_append.mp member with listed | last
        · exact later y listed
        · rw [List.mem_singleton.mp last]
          have number := numbers e (by simp [split])
          exact (Double.le_iff_not_lt number).mpr ⟨numbers x (by simp), lower⟩

/-- The items of a list where a function is a number. -/
def definedAt (f : β → Float) (xs : List β) : List β := xs.filter fun x => !(f x).isNaN

theorem mem_definedAt {x : β} : x ∈ definedAt f xs ↔ x ∈ xs ∧ (f x).isNaN = false := by
  rw [definedAt, List.mem_filter, Bool.not_eq_true']

theorem definedAt_concat_of_isNaN {x : β} (nan : (f x).isNaN = true) :
    definedAt f (xs ++ [x]) = definedAt f xs := by
  unfold definedAt
  rw [List.filter_append, List.filter_cons_of_neg (by rw [nan]; decide), List.filter_nil,
    List.append_nil]

theorem definedAt_concat {x : β} (number : (f x).isNaN = false) :
    definedAt f (xs ++ [x]) = definedAt f xs ++ [x] := by
  unfold definedAt
  rw [List.filter_append, List.filter_cons_of_pos (by rw [number]; decide), List.filter_nil]

theorem firstLeast_of_leastBy {x : β} (found : leastBy f (definedAt f xs) = some x) :
    FirstLeast f (definedAt f xs) x := by
  have spec := leastBy_spec fun y (member : y ∈ definedAt f xs) => (mem_definedAt.mp member).2
  rw [found] at spec
  exact spec

/-- What a scan for the least number below a bound keeps: the number and its item. -/
def lowest (f : β → Float) (bound : Float) : Option β → Float × Option β
  | none => (bound, none)
  | some e => if f e < bound then (f e, some e) else (bound, none)

theorem foldl_eq_lowest (bound : Float) (xs : List β) :
    xs.foldl (fun (least, entering) x =>
        if f x < least then (f x, some x) else (least, entering)) (bound, none) =
      lowest f bound (leastBy f (definedAt f xs)) := by
  induction xs using List.reverseRecOn with
  | nil => rfl
  | append_singleton xs x ih =>
    rw [List.foldl_append, ih, List.foldl_cons, List.foldl_nil]
    by_cases nan : (f x).isNaN = true
    · have above : ∀ least, ¬ f x < least := by
        intro least below
        rw [(Double.isNaN_of_lt below).1] at nan
        cases nan
      rw [definedAt_concat_of_isNaN nan]
      simp only [above, if_false]
    · rw [definedAt_concat (Bool.not_eq_true _ ▸ nan), leastBy_concat]
      cases found : leastBy f (definedAt f xs) with
      | none => rfl
      | some e =>
        have number := (mem_definedAt.mp (firstLeast_of_leastBy found).mem).2
        by_cases low : f e < bound
        · by_cases lower : f x < f e
          · have below : f x < bound := IsTrans.trans _ _ _ lower low
            simp [lowest, low, lower, below]
          · simp [lowest, low, lower]
        · by_cases below : f x < bound
          · have lower := Double.lt_of_lt_of_not_lt below low number
            simp [lowest, low, lower, below]
          · by_cases lower : f x < f e <;> simp [lowest, low, lower, below]

end Least

namespace Row

/-- The ratio of a row for a column. -/
def ratioFor (r : Row Float) (s : Symbol) : Float := r.rhs / r.coefficient s

/-- A row may leave for a column: its entry exceeds the tolerance, and its ratio is positive and
    finite. -/
def mayLeave (r : Row Float) (s : Symbol) (tolerance : Float) : Bool :=
  tolerance < (r.coefficient s).abs && (0 < r.ratioFor s && (r.ratioFor s).isFinite)

/-- A row with its ratio for a column, where its entry exceeds the tolerance, and its flag. -/
def rated (r : Row Float) (s : Symbol) (tolerance : Float) (flag : Bool) : Row Float :=
  { r with
    ratio := if tolerance < (r.coefficient s).abs then some (r.ratioFor s) else none
    isPivotRow := flag }

variable {r : Row Float} {s : Symbol} {tolerance : Float}

theorem mayLeave_iff : r.mayLeave s tolerance = true ↔ tolerance < (r.coefficient s).abs ∧
    0 < r.ratioFor s ∧ (r.ratioFor s).isFinite = true := by
  simp [mayLeave]

/-- A row that may leave has an entry to divide by: zero does not exceed the tolerance, and what is
    divided by an infinity is not positive. -/
theorem usable_of_mayLeave (nonneg : 0 ≤ tolerance) (leaves : r.mayLeave s tolerance = true) :
    (r.coefficient s).isFinite = true ∧ (r.coefficient s == 0) = false := by
  obtain ⟨large, positive, _⟩ := mayLeave_iff.mp leaves
  refine ⟨Double.isFinite_of_div_pos positive, ?_⟩
  by_contra zero
  rw [Bool.not_eq_false] at zero
  have notBelow : ¬ tolerance < 0 := ((Double.le_iff_not_lt (by decide)).mp nonneg).2
  exact Double.not_lt_abs (.inl zero) notBelow large

end Row

namespace Tableau

variable {t : Tableau Float} {tolerance : Float}

/-! ### The column that enters -/

/-- The column that enters is that of the first least relative cost, if this is below minus the
    tolerance. -/
theorem enteringColumn?_eq (evaluated : t.isEvaluated = true) :
    t.enteringColumn? tolerance = (lowest t.relativeCost (-tolerance)
      (leastBy t.relativeCost (definedAt t.relativeCost t.columns))).2 := by
  rw [← foldl_eq_lowest]
  unfold enteringColumn?
  rw [if_pos evaluated]
  rfl

/-- The column that enters has the first least relative cost among those that are numbers. -/
theorem firstLeast_of_entering {s : Symbol} (evaluated : t.isEvaluated = true)
    (entering : t.enteringColumn? tolerance = some s) :
    FirstLeast t.relativeCost (definedAt t.relativeCost t.columns) s := by
  rw [enteringColumn?_eq evaluated] at entering
  cases found : leastBy t.relativeCost (definedAt t.relativeCost t.columns) with
  | none =>
    rw [found] at entering
    cases entering
  | some e =>
    rw [found] at entering
    by_cases low : t.relativeCost e < -tolerance
    · simp only [lowest, low, if_true, Option.some.injEq] at entering
      exact entering ▸ firstLeast_of_leastBy found
    · simp [lowest, low] at entering

/-! ### The row that leaves -/

/-- Only a row that may leave becomes the best one, and only with a ratio below the least so far; a
    ratio below another one is finite. -/
theorem better_rated (best : Option (Row Float × Float)) (r : Row Float) (s : Symbol) :
    better best (r.rated s tolerance false) =
      if r.mayLeave s tolerance then
        match best with
        | none => some (r.rated s tolerance false, r.ratioFor s)
        | some (b, least) =>
          if r.ratioFor s < least then some (r.rated s tolerance false, r.ratioFor s)
          else some (b, least)
      else best := by
  by_cases large : tolerance < (r.coefficient s).abs
  · have ratio : (r.rated s tolerance false).ratio = some (r.ratioFor s) := if_pos large
    by_cases positive : 0 < r.ratioFor s
    · cases best with
      | none => simp [better, ratio, Row.mayLeave, large, positive, Scalar.isFinite]
      | some b =>
        obtain ⟨b, least⟩ := b
        by_cases lower : r.ratioFor s < least
        · have finite := Double.isFinite_of_lt positive lower
          simp [better, ratio, Row.mayLeave, large, positive, lower, finite]
        · simp [better, ratio, positive, lower]
    · cases best <;> simp [better, ratio, Row.mayLeave, positive]
  · have ratio : (r.rated s tolerance false).ratio = none := if_neg large
    cases best <;> simp [better, ratio, Row.mayLeave, large]

theorem foldl_better (rows : List (Row Float)) (s : Symbol) :
    (rows.map fun r => r.rated s tolerance false).foldl better none =
      (leastBy (fun r => r.ratioFor s) (rows.filter fun r => r.mayLeave s tolerance)).map
        fun r => (r.rated s tolerance false, r.ratioFor s) := by
  induction rows using List.reverseRecOn with
  | nil => rfl
  | append_singleton rows r ih =>
    rw [List.map_append, List.foldl_append, ih, List.map_cons, List.map_nil, List.foldl_cons,
      List.foldl_nil, better_rated, List.filter_append]
    by_cases leaves : r.mayLeave s tolerance = true
    · have single : [r].filter (fun r => r.mayLeave s tolerance) = [r] := by simp [leaves]
      rw [if_pos leaves, single, leastBy_concat]
      cases found : leastBy (fun r => r.ratioFor s)
          (rows.filter fun r => r.mayLeave s tolerance) with
      | none => rfl
      | some e =>
        by_cases lower : r.ratioFor s < e.ratioFor s
        · simp [lower]
        · simp [lower]
    · have nothing : [r].filter (fun r => r.mayLeave s tolerance) = [] := by simp [leaves]
      rw [if_neg leaves, nothing, List.append_nil]

/-- The rows that may leave for a column, in order. -/
def leavers (t : Tableau Float) (s : Symbol) (tolerance : Float) : List (Row Float) :=
  t.rows.filter fun r => r.mayLeave s tolerance

theorem leavingRow?_eq (t : Tableau Float) (s : Symbol) :
    leavingRow? (t.rows.map fun r => r.rated s tolerance false) =
      (leastBy (fun r => r.ratioFor s) (t.leavers s tolerance)).map
        fun r => r.rated s tolerance false := by
  unfold leavingRow? leavers
  rw [foldl_better, Option.map_map]
  rfl

/-- The scan over the rows ends with the first least ratio of the rows that may leave. -/
theorem leastBy_leavers (t : Tableau Float) (s : Symbol) (tolerance : Float) :
    match leastBy (fun r => r.ratioFor s) (t.leavers s tolerance) with
    | none => ∀ r ∈ t.rows, r.mayLeave s tolerance = false
    | some leaving => FirstLeast (fun r => r.ratioFor s) (t.leavers s tolerance) leaving := by
  have numbers : ∀ r ∈ t.leavers s tolerance, (r.ratioFor s).isNaN = false := by
    intro r member
    have leaves := Row.mayLeave_iff.mp (List.mem_filter.mp member).2
    exact (Double.isNaN_of_lt leaves.2.1).2
  have spec := leastBy_spec numbers
  split
  · rename_i none
    rw [none] at spec
    intro r member
    simpa using List.filter_eq_nil_iff.mp spec r member
  · rename_i leaving found
    rw [found] at spec
    exact spec

theorem selectPivot_of_entering (evaluated : t.isEvaluated = true) {s : Symbol}
    (entering : t.enteringColumn? tolerance = some s) :
    t.selectPivot tolerance =
      match leastBy (fun r => r.ratioFor s) (t.leavers s tolerance) with
      | none =>
        ({ t with rows := t.rows.map fun r => r.rated s tolerance false }, .ok (.unbounded s))
      | some leaving =>
        ({ t with
            rows := t.rows.map fun r => r.rated s tolerance (r.index == leaving.index)
            pivot := some ⟨leaving.index, s, leaving.coefficient s⟩ },
          .ok (.pivot ⟨leaving.index, s, leaving.coefficient s⟩)) := by
  have rows : (t.rows.map fun r => Row.withRatio r s tolerance) =
      t.rows.map fun r => r.rated s tolerance false := rfl
  unfold selectPivot
  simp only [evaluated, entering, rows, leavingRow?_eq, Bool.not_true, Bool.false_eq_true, if_false]
  cases leastBy (fun r => r.ratioFor s) (t.leavers s tolerance) with
  | none => rfl
  | some leaving =>
    simp only [Option.map_some, List.map_map]
    rfl

/-- Looking for a pivot on doubles. No access is out of range. The tableau is optimal just if no
    relative cost is below minus the tolerance; else the column of the first least relative cost that
    is a number enters. Then a row with the first least ratio of those that may leave is the pivot
    row, and its entry can be divided by; the column is called unbounded just if no row may leave.
    Every row gets its ratio, and the pivot row alone is flagged. -/
theorem selectPivot_first_least (regular : t.Regular) (evaluated : t.isEvaluated = true)
    (nonneg : 0 ≤ tolerance) :
    Checked.selectPivot t tolerance = some (t.selectPivot tolerance) ∧
    (t.selectPivot tolerance = (t, .ok .optimal) ↔
      ∀ cost ∈ t.relativeCosts, ¬ cost < -tolerance) ∧
    ((∃ cost ∈ t.relativeCosts, cost < -tolerance) →
      ∃ s, FirstLeast t.relativeCost (definedAt t.relativeCost t.columns) s ∧
        (t.selectPivot tolerance =
            ({ t with rows := t.rows.map fun r => r.rated s tolerance false },
              .ok (.unbounded s)) ↔
          ∀ r ∈ t.rows, r.mayLeave s tolerance = false) ∧
        ((∃ r ∈ t.rows, r.mayLeave s tolerance = true) → ∃ leaving,
          FirstLeast (fun r => r.ratioFor s) (t.leavers s tolerance) leaving ∧
          t.rows[leaving.index]? = some leaving ∧ (leaving.coefficient s).isFinite = true ∧
          (leaving.coefficient s == 0) = false ∧
          t.selectPivot tolerance =
            ({ t with
                rows := t.rows.map fun r => r.rated s tolerance (r.index == leaving.index)
                pivot := some ⟨leaving.index, s, leaving.coefficient s⟩ },
              .ok (.pivot ⟨leaving.index, s, leaving.coefficient s⟩)))) := by
  refine ⟨regular.checked_selectPivot, ?_⟩
  have costs := regular.relativeCosts_eq_map evaluated
  have spec := enteringColumn?_spec evaluated tolerance
  cases entering : t.enteringColumn? tolerance with
  | none =>
    rw [entering] at spec
    have dear : ∀ cost ∈ t.relativeCosts, ¬ cost < -tolerance := by
      rw [costs, List.forall_mem_map]
      exact spec
    have found : t.selectPivot tolerance = (t, .ok .optimal) := by
      simp [selectPivot, evaluated, entering]
    exact ⟨⟨fun _ => dear, fun _ => found⟩, fun ⟨cost, member, cheap⟩ =>
      absurd cheap (dear cost member)⟩
  | some s =>
    rw [entering] at spec
    have cheap : ∃ cost ∈ t.relativeCosts, cost < -tolerance := by
      rw [costs]
      exact ⟨_, List.mem_map_of_mem spec.1, spec.2.1⟩
    have first := firstLeast_of_entering evaluated entering
    have found := selectPivot_of_entering evaluated entering
    have scanned := leastBy_leavers t s tolerance
    have notOptimal : t.selectPivot tolerance ≠ (t, .ok .optimal) := by
      intro optimal
      obtain ⟨_, none, _⟩ := selectPivot_ok optimal
      rw [entering] at none
      cases none
    refine ⟨⟨fun optimal => absurd optimal notOptimal, fun dear => ?_⟩, fun _ => ⟨s, first, ?_⟩⟩
    · obtain ⟨cost, member, below⟩ := cheap
      exact absurd below (dear cost member)
    · cases leaves : leastBy (fun r => r.ratioFor s) (t.leavers s tolerance) with
      | none =>
        rw [leaves] at found scanned
        refine ⟨⟨fun _ => scanned, fun _ => found⟩, fun ⟨r, member, may⟩ => ?_⟩
        rw [scanned r member] at may
        cases may
      | some leaving =>
        rw [leaves] at found scanned
        obtain ⟨member, may⟩ := List.mem_filter.mp scanned.mem
        obtain ⟨finite, nonzero⟩ := Row.usable_of_mayLeave nonneg may
        refine ⟨⟨fun unbounded => ?_, fun stay => ?_⟩, fun _ =>
          ⟨leaving, scanned, regular.numbered.getElem?_index member, finite, nonzero, found⟩⟩
        · rw [found] at unbounded
          cases (Prod.mk.inj unbounded).2
        · rw [stay leaving member] at may
          cases may

/-- The second column has a cost that is no number, the last two have the same; in the third the first
    row has no entry, the second an infinite one, and the next two have the same ratio. -/
def tied : Tableau Float where
  iteration := 1
  columns := [⟨0⟩, ⟨1⟩, ⟨2⟩, ⟨3⟩]
  costs := [1, 1, 2, 2]
  rows := [
    ⟨0, ⟨0⟩, "u", 0, 1, [1, 0, 0, 3], none, false⟩,
    ⟨1, ⟨1⟩, "v", 0, 3, [0, 1, 1 / 0, 1], none, false⟩,
    ⟨2, ⟨2⟩, "w", 0, 4, [0, 0, 2, 1], none, false⟩,
    ⟨3, ⟨3⟩, "x", 0, -2, [0, 0, -1, 1], none, false⟩]
  zj := [0, 0, 0, 0]
  relativeCosts := [-1, 0 / 0, -2, -2]
  pivot := none

theorem tied_first_least : tied.isEvaluated = true ∧ ∃ leaving,
    FirstLeast tied.relativeCost (definedAt tied.relativeCost tied.columns) ⟨2⟩ ∧
      FirstLeast (fun r => r.ratioFor ⟨2⟩) (tied.leavers ⟨2⟩ 0.5) leaving ∧
      leaving.index = 2 ∧ (tied.selectPivot 0.5).2 = .ok (.pivot ⟨2, ⟨2⟩, 2⟩) := by
  have evaluated : tied.isEvaluated = true := rfl
  have regular : tied.Regular := ⟨rfl, rfl, by decide⟩
  have answer : (tied.selectPivot 0.5).2 = .ok (.pivot ⟨2, ⟨2⟩, 2⟩) := by decide +kernel
  have nonneg : (0 : Float) ≤ 0.5 := by decide +kernel
  obtain ⟨_, _, below⟩ := selectPivot_first_least regular evaluated nonneg
  obtain ⟨s, entering, unbounded, pivots⟩ := below ⟨-1, List.mem_cons_self, by decide +kernel⟩
  have leaves : ∃ r ∈ tied.rows, r.mayLeave s 0.5 = true := by
    by_contra none
    rw [unbounded.mpr fun r member => by simpa using fun may => none ⟨r, member, may⟩] at answer
    cases answer
  obtain ⟨leaving, least, _, _, _, found⟩ := pivots leaves
  have chosen := answer
  rw [found] at chosen
  simp only [Except.ok.injEq, PivotChoice.pivot.injEq, Pivot.mk.injEq] at chosen
  obtain ⟨row, rfl, _⟩ := chosen
  exact ⟨evaluated, leaving, entering, least, row, answer⟩

end Tableau

end Simplex
