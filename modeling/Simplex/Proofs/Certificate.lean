import Simplex.Proofs.Growth
import Simplex.Proofs.Overflow

/-!
The certificate of an optimum on doubles. At an optimum no relative cost is below minus the
tolerance, but one that is undefined is not below anything. So the relative costs certify the
optimum just if every one of them is defined.
-/
namespace Simplex

namespace Tableau

variable {form : StandardForm Float} {t u : Tableau Float} {tolerance : Float} {s : Symbol}

/-- The products that the cost of the basis for a column is summed from. -/
def products (t : Tableau Float) (s : Symbol) : List Float :=
  t.rows.map fun r => r.basisCost * r.coefficient s

/-- The relative cost of a column is undefined: an operand is, a zero is multiplied by an infinity,
    opposite infinities meet in the running sum, or the sum and the cost are the same infinity. -/
inductive UndefinedCost (t : Tableau Float) (s : Symbol) : Prop
  | cost (nan : (t.costs.getD s.index 0).isNaN = true)
  | operand {r : Row Float} (member : r ∈ t.rows)
      (nan : r.basisCost.isNaN = true ∨ (r.coefficient s).isNaN = true)
  | product {r : Row Float} (member : r ∈ t.rows)
      (meet : r.basisCost.isInf = true ∧ (r.coefficient s == 0) = true ∨
        (r.basisCost == 0) = true ∧ (r.coefficient s).isInf = true)
  | sum {before after : List Float} {x : Float} (split : t.products s = before ++ x :: after)
      (meet : (Scalar.sum before).isInf = true ∧ x = -Scalar.sum before)
  | difference (meet : (Scalar.sum (t.products s)).isInf = true ∧
      t.costs.getD s.index 0 = Scalar.sum (t.products s))

/-- What the cases list is just when the relative cost is no number. -/
theorem Fits.isNaN_relativeCost (h : t.Fits form) (member : s ∈ t.columns) :
    (t.evaluate.relativeCost s).isNaN = true ↔ t.evaluate.UndefinedCost s := by
  have cost : t.evaluate.relativeCost s =
      Scalar.sum (t.products s) - t.costs.getD s.index 0 := by
    rw [h.columnsInOrder.relativeCost_evaluate member]
    rfl
  rw [cost, Double.isNaN_sub, Double.isNaN_sum]
  constructor
  · rintro (⟨before, x, after, split, nan | meet⟩ | nan | meet)
    · have listed : x ∈ t.products s := split ▸ List.mem_append_right before List.mem_cons_self
      obtain ⟨r, row, rfl⟩ := List.mem_map.mp listed
      rcases Double.isNaN_mul.mp nan with left | right | meet
      · exact .operand row (.inl left)
      · exact .operand row (.inr right)
      · exact .product row meet
    · exact .sum split meet
    · exact .cost nan
    · exact .difference meet
  · have undefined {r : Row Float} (row : r ∈ t.rows)
        (nan : (r.basisCost * r.coefficient s).isNaN = true) :
        ∃ before x after, t.products s = before ++ x :: after ∧
          (x.isNaN = true ∨ (Scalar.sum before).isInf = true ∧ x = -Scalar.sum before) := by
      have listed : r.basisCost * r.coefficient s ∈ t.products s := List.mem_map_of_mem row
      obtain ⟨before, after, split⟩ := List.append_of_mem listed
      exact ⟨before, _, after, split, .inl nan⟩
    rintro (nan | ⟨row, nan⟩ | ⟨row, meet⟩ | ⟨split, meet⟩ | meet)
    · exact .inr (.inl nan)
    · refine .inl (undefined row (Double.isNaN_mul.mpr ?_))
      rcases nan with left | right
      · exact .inl left
      · exact .inr (.inl right)
    · exact .inl (undefined row (Double.isNaN_mul.mpr (.inr (.inr meet))))
    · exact .inl ⟨_, _, _, split, .inr meet⟩
    · exact .inr (.inr meet)

/-- At an optimum a relative cost is undefined, or at least minus the tolerance. -/
theorem le_relativeCost (number : tolerance.isNaN = false)
    (chosen : t.evaluate.selectPivot tolerance = (u, .ok .optimal)) (member : s ∈ u.columns) :
    (u.relativeCost s).isNaN = false ↔ -tolerance ≤ u.relativeCost s := by
  obtain ⟨evaluated, entering, rfl⟩ := selectPivot_ok chosen
  have spec := enteringColumn?_spec evaluated tolerance
  rw [entering] at spec
  rw [Double.le_iff_not_lt (by rw [Double.isNaN_neg, number])]
  exact ⟨fun defined => ⟨defined, spec s member⟩, fun above => above.1⟩

end Tableau

/-- The last tableau of an optimal report is evaluated, and its relative costs are undefined or at
    least minus the tolerance. They are all numbers of that kind just if in no column an undefined
    operation arises. -/
theorem certified_iff (p : Problem Float) {tolerance : Float} (number : tolerance.isNaN = false)
    (cap : Nat) {report : Report Float} (solved : Solver.solve ⟨cap, tolerance⟩ p = .ok report)
    (optimal : report.termination = .optimal) :
    ∃ last, report.tableaux.getLast? = some last ∧ last.isEvaluated = true ∧
      (∀ cost ∈ last.relativeCosts, cost.isNaN = true ∨ -tolerance ≤ cost) ∧
      ((∀ cost ∈ last.relativeCosts, cost.isNaN = false ∧ -tolerance ≤ cost) ↔
        ∀ s ∈ last.columns, ¬ last.UndefinedCost s) := by
  obtain ⟨earlier, t, u, _, reached, chosen, tableaux, _⟩ := Solver.solve_optimal solved optimal
  have fits := reached.fits
  obtain ⟨evaluated, _, same⟩ := Tableau.selectPivot_ok chosen
  have costs : u.relativeCosts = u.columns.map u.relativeCost := by
    rw [same]
    exact (fits.of_bare t.bare_evaluate.symm).relativeCosts_eq_map evaluated
  refine ⟨u, by rw [tableaux, List.getLast?_concat], same ▸ evaluated, ?_, ?_⟩
  · rw [costs, List.forall_mem_map]
    intro s member
    by_cases nan : (u.relativeCost s).isNaN = true
    · exact .inl nan
    · exact .inr ((Tableau.le_relativeCost number chosen member).mp (Bool.not_eq_true _ ▸ nan))
  · rw [costs, List.forall_mem_map]
    refine forall₂_congr fun s member => ?_
    have undefined : (u.relativeCost s).isNaN = true ↔ u.UndefinedCost s := by
      subst same
      exact fits.isNaN_relativeCost member
    rw [← Tableau.le_relativeCost number chosen member, ← undefined, and_self, Bool.not_eq_true]

theorem wedge_certified : (1e-9 : Float).isNaN = false ∧ ∃ report last,
    Solver.solve ⟨9, 1e-9⟩ wedge = .ok report ∧ report.termination = .optimal ∧
      report.tableaux.getLast? = some last ∧ last.isEvaluated = true ∧
      (∀ cost ∈ last.relativeCosts, cost.isNaN = false ∧ -1e-9 ≤ cost) ∧
      ∀ s ∈ last.columns, ¬ last.UndefinedCost s := by
  have number : (1e-9 : Float).isNaN = false := by decide +kernel
  obtain ⟨report, solved, checked⟩ := exists_ok (Solver.solve ⟨9, 1e-9⟩ wedge)
    (fun r : Report Float => r.termination == .optimal && r.tableaux.getLast?.all fun last =>
      last.relativeCosts.all fun cost => !cost.isNaN && decide (-1e-9 ≤ cost)) (by decide +kernel)
  rw [Bool.and_eq_true, beq_iff_eq] at checked
  obtain ⟨optimal, costs⟩ := checked
  obtain ⟨last, found, evaluated, _, certified⟩ := certified_iff wedge number 9 solved optimal
  rw [found] at costs
  have above : ∀ cost ∈ last.relativeCosts, cost.isNaN = false ∧ -1e-9 ≤ cost := by
    intro cost listed
    have both := List.all_eq_true.mp costs cost listed
    rwa [Bool.and_eq_true, Bool.not_eq_true', decide_eq_true_iff] at both
  exact ⟨number, report, last, solved, optimal, found, evaluated, above, certified.mp above⟩

/-- Maximize `2x + y` where `x` is at most `8y + 1` and a large multiple of `x + y` is at most a
    large number; the best point is `x = 5`, `y = 0.5`. -/
def steepBounds : Problem Float where
  direction := .maximize
  objective := [{ coefficient := 2, name := "x" }, { coefficient := 1, name := "y" }]
  objectiveConstant := 0
  constraints := [⟨[{ coefficient := 1, name := "x" }, { coefficient := -8, name := "y" }], .le, 1⟩,
    ⟨[{ coefficient := 2.5e307, name := "x" }, { coefficient := 2.5e307, name := "y" }], .le,
      1.375e308⟩]

/-- The first pivot overflows the entry of `y` in the row of a slack that costs nothing, so the
    relative cost of `y` becomes zero times infinity, and nothing enters any more. -/
theorem steepBounds_not_certified :
    (∀ c ∈ steepBounds.constraints, c.rhs.isFinite = true ∧
      ∀ t ∈ c.lhs, t.coefficient.isFinite = true) ∧
    (∀ t ∈ steepBounds.objective, t.coefficient.isFinite = true) ∧
    steepBounds.objectiveConstant.isFinite = true ∧
    ∃ report last, Solver.standard.solve steepBounds = .ok report ∧
      report.termination = .optimal ∧ report.tableaux.getLast? = some last ∧
      ∃ cost ∈ last.relativeCosts, cost.isNaN = true ∧ ¬ -Solver.standard.tolerance ≤ cost := by
  refine ⟨by decide +kernel, by decide +kernel, by decide +kernel, ?_⟩
  obtain ⟨report, solved, checked⟩ := exists_ok (Solver.standard.solve steepBounds)
    (fun r : Report Float => r.termination == .optimal && r.tableaux.getLast?.any fun last =>
      last.relativeCosts.any fun cost =>
        cost.isNaN && !decide (-Solver.standard.tolerance ≤ cost)) (by decide +kernel)
  rw [Bool.and_eq_true, beq_iff_eq, Option.any_eq_true] at checked
  obtain ⟨optimal, last, found, undefined⟩ := checked
  obtain ⟨cost, listed, both⟩ := List.any_eq_true.mp undefined
  rw [Bool.and_eq_true, Bool.not_eq_true', decide_eq_false_iff_not] at both
  exact ⟨report, last, solved, optimal, found, cost, listed, both⟩

end Simplex
