import Simplex.Proofs.Feasibility

/-!
What an optimal report says. Its solution satisfies the equations and bounds the objective at every
point that the problem allows; the solution itself is allowed just if the last tableau has no
negative right-hand side, which a pivot past an overlooked row can bring about.
-/
namespace Simplex

variable {p : Problem Rat} {report : Report Rat} {cap : Nat}

/-- The solution of an optimal report satisfies the equations, and it is allowed just if the last
    tableau has no negative right-hand side. No tableau has one just if the first has none and no
    pivot overlooks a row. -/
theorem optimum_feasible_iff (bounds : p.BoundsOnly)
    (solved : Solver.solve ⟨cap, 0⟩ p = .ok report) (optimal : report.termination = .optimal) :
    ∃ solution first last, report.solution = some solution ∧
      report.tableaux.head? = some first ∧ report.tableaux.getLast? = some last ∧
      report.standardForm.Satisfied solution.value ∧
      (p.Feasible solution.value ↔ last.Nonneg) ∧
      ((∀ t ∈ report.tableaux, t.Nonneg) ↔
        first.Nonneg ∧ ∀ t ∈ report.tableaux, ¬ t.Overlooks) := by
  obtain ⟨represents, trace, last, listed, read, none, _⟩ :=
    Solver.optimal_trace le_rfl solved optimal
  have canonical := trace.canonical last (List.mem_of_getLast? listed)
  have settled := Tableau.not_overlooks_of_none none
  have chain := trace.chain
  obtain ⟨first, rest, cons⟩ := eq_cons_of_getLast? listed
  rw [cons] at chain listed ⊢
  refine ⟨_, first, last, read, rfl, listed, canonical.satisfied_solution,
    canonical.feasible_solution_iff represents bounds, ?_⟩
  rw [all_nonneg_iff chain, forall_mem_iff_dropLast listed]
  exact and_congr_right fun _ => ⟨fun none => ⟨none, settled⟩, fun none => none.1⟩

/-- Maximize `x + y` where `x + y` is at most four and `x + 2y` is at most five. -/
def twoBounds : Problem Rat where
  direction := .maximize
  objective := [{ coefficient := 1, name := "x" }, { coefficient := 1, name := "y" }]
  objectiveConstant := 0
  constraints := [
    ⟨[{ coefficient := 1, name := "x" }, { coefficient := 1, name := "y" }], .le, 4⟩,
    ⟨[{ coefficient := 1, name := "x" }, { coefficient := 2, name := "y" }], .le, 5⟩]

theorem twoBounds_optimum_feasible : ∃ report solution,
    Solver.solve ⟨10, 0⟩ twoBounds = .ok report ∧ report.solution = some solution ∧
      twoBounds.Feasible solution.value := by
  obtain ⟨report, solved, checked⟩ := exists_ok (Solver.solve ⟨10, 0⟩ twoBounds)
    (fun r : Report Rat => r.termination == .optimal &&
      r.tableaux.getLast?.all fun t : Tableau Rat => decide t.Nonneg) (by decide +kernel)
  obtain ⟨stopped, ended⟩ := Bool.and_eq_true_iff.mp checked
  obtain ⟨solution, first, last, read, _, listed, _, allowed, _⟩ :=
    optimum_feasible_iff (by decide) solved (beq_iff_eq.mp stopped)
  rw [listed] at ended
  exact ⟨report, solution, solved, read, allowed.mpr (of_decide_eq_true ended)⟩

/-- Maximize `x` where `x` is at most `y` and both are at most four. -/
def cornered : Problem Rat where
  direction := .maximize
  objective := [{ coefficient := 1, name := "x" }]
  objectiveConstant := 0
  constraints := [
    ⟨[{ coefficient := 1, name := "x" }, { coefficient := -1, name := "y" }], .le, 0⟩,
    ⟨[{ coefficient := 1, name := "x" }], .le, 4⟩, ⟨[{ coefficient := 1, name := "y" }], .le, 4⟩]

/-- The first row is overlooked while `x` grows to four, and `y` stays zero. -/
theorem cornered_optimum_not_feasible : cornered.BoundsOnly ∧
    ∃ report solution, Solver.solve ⟨10, 0⟩ cornered = .ok report ∧
      report.termination = .optimal ∧ report.solution = some solution ∧
      ¬ cornered.Feasible solution.value := by
  refine ⟨by decide, ?_⟩
  obtain ⟨report, solved, checked⟩ := exists_ok (Solver.solve ⟨10, 0⟩ cornered)
    (fun r : Report Rat => r.termination == .optimal && r.solution.any fun s : Solution Rat =>
      s.value "x" == 4 && s.value "y" == 0) (by decide +kernel)
  obtain ⟨stopped, found⟩ := Bool.and_eq_true_iff.mp checked
  obtain ⟨solution, read, values⟩ := (Option.any_eq_true _ _).mp found
  obtain ⟨x, y⟩ := Bool.and_eq_true_iff.mp values
  refine ⟨report, solution, solved, beq_iff_eq.mp stopped, read, fun feasible => ?_⟩
  have below := feasible.allows _ List.mem_cons_self
  simp [Constraint.Allows, Relation.Relaxed, beq_iff_eq.mp x, beq_iff_eq.mp y] at below
  linarith

/-- What a point pays for being off the optimum: the tolerance for each unit of a variable and of a
    slack. -/
def Problem.allowance (p : Problem Rat) (tolerance : Rat) (v : String → Rat) : Rat :=
  tolerance * ((p.variableNames.map v).sum + (p.constraints.map fun c => c.slackAt v).sum)

/-- At an allowed point the objective of the standard form is at most the value of a tableau whose
    prices are not below minus the tolerance, and the allowance. -/
theorem Tableau.Canonical.objective_le {form : StandardForm Rat} {t : Tableau Rat}
    (canonical : t.Canonical form) (represents : form.Represents p) (bounds : p.BoundsOnly)
    {tolerance : Rat} (dear : ∀ s ∈ t.columns, -tolerance ≤ t.price s) {v : String → Rat}
    (feasible : p.Feasible v) :
    form.objective.value (form.extend v) ≤ t.objectiveValue + p.allowance tolerance v := by
  have satisfied := represents.satisfied_extend feasible
  have nonneg : ∀ n ∈ form.symbols.names, 0 ≤ form.extend v n :=
    (represents.feasible_iff bounds satisfied).mp (represents.feasible_extend.mpr feasible)
  have each : ∀ s ∈ t.columns, -tolerance * form.extend v (form.symbols.name s) ≤
      t.price s * form.extend v (form.symbols.name s) := by
    intro s member
    have column : s ∈ form.symbols.symbols := canonical.columns ▸ member
    exact mul_le_mul_of_nonneg_right (dear s member) (nonneg _ (form.symbols.name_mem column))
  have total : (t.columns.map fun s => form.extend v (form.symbols.name s)).sum =
      (p.variableNames.map v).sum + (p.constraints.map fun c => c.slackAt v).sum := by
    rw [← represents.sum_extend bounds, ← form.symbols.map_name_symbols, canonical.columns,
      List.map_map]
    rfl
  have prices := List.sum_le_sum each
  rw [List.sum_map_mul_left, total] at prices
  rw [canonical.objective_eq represents satisfied, Problem.allowance]
  linarith

/-- The value of an optimal report bounds the objective at every allowed point, up to the
    allowance that the tolerance makes. -/
theorem optimum_bounds (pure : p.PureObjective) (bounds : p.BoundsOnly) {tolerance : Rat}
    (solved : Solver.solve ⟨cap, tolerance⟩ p = .ok report)
    (nonneg : 0 ≤ tolerance) (optimal : report.termination = .optimal) :
    ∃ solution, report.solution = some solution ∧ ∀ v, p.Feasible v →
      match p.direction with
      | .maximize => p.objectiveAt v ≤ solution.objectiveValue + p.allowance tolerance v
      | .minimize => solution.objectiveValue - p.allowance tolerance v ≤ p.objectiveAt v := by
  obtain ⟨represents, trace, last, listed, read, _, dear⟩ :=
    Solver.optimal_trace nonneg solved optimal
  have canonical := trace.canonical last (List.mem_of_getLast? listed)
  refine ⟨_, read, fun v feasible => ?_⟩
  have below := canonical.objective_le represents bounds dear feasible
  have sameObjective : p.objective.value (report.standardForm.extend v) = p.objective.value v :=
    Expression.value_congr fun _ member =>
      represents.extend_name (List.mem_append_left _ member) v
  rw [represents.objective_value pure, sameObjective] at below
  rw [canonical.objectiveValue_solution represents]
  unfold Problem.objectiveAt
  cases direction : p.direction with
  | maximize =>
    rw [direction] at below
    simp only at below ⊢
    linarith
  | minimize =>
    rw [direction] at below
    simp only at below ⊢
    linarith

theorem cornered_bounded : ∃ report, Solver.solve ⟨10, 1 / 10⟩ cornered = .ok report ∧
    ∀ v, cornered.Feasible v →
      cornered.objectiveAt v ≤ 4 + cornered.allowance (1 / 10) v := by
  obtain ⟨report, solved, checked⟩ := exists_ok (Solver.solve ⟨10, 1 / 10⟩ cornered)
    (fun r : Report Rat => r.termination == .optimal && r.solution.all fun s : Solution Rat =>
      s.objectiveValue == 4) (by decide +kernel)
  obtain ⟨stopped, four⟩ := Bool.and_eq_true_iff.mp checked
  obtain ⟨solution, read, bounded⟩ :=
    optimum_bounds (by decide) (by decide) solved (by norm_num) (beq_iff_eq.mp stopped)
  rw [read] at four
  refine ⟨report, solved, fun v feasible => ?_⟩
  rw [← beq_iff_eq.mp four]
  exact bounded v feasible

end Simplex
