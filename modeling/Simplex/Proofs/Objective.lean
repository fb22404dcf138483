import Simplex.Proofs.Extraction
import Simplex.Proofs.Inspection
import Simplex.Proofs.Runs

/-!
The objective at an optimum. A solution adds up the terms of the objective at the values of the
variables, a tableau adds up the costs of its basis at the right-hand sides. On the rationals both
come to the same value, for every tolerance: a pivot needs a positive ratio, so none divides by zero
and all tableaux stay canonical.
-/
namespace Simplex

variable {p : Problem Rat} {form : StandardForm Rat} {tolerance : Rat}

theorem Tableau.Canonical.advance {t u next : Tableau Rat} (h : t.Canonical form) {q : Pivot Rat}
    (chosen : t.evaluate.selectPivot tolerance = (u, .ok (.pivot q)))
    (made : u.pivoted form.symbols = .ok next) : next.Canonical form := by
  have inspected := h.of_bare (Tableau.bare_of_selected chosen).symm
  obtain ⟨source, pivots⟩ := Tableau.exists_pivots h.rowsNumbered chosen
  exact pivots.canonical_next inspected.toFits inspected made

/-- Every tableau that pivots lead to is canonical, for any tolerance. -/
theorem Reached.canonical_any {earlier : List (Tableau Rat)} {t : Tableau Rat}
    (represents : form.Represents p) (h : Reached form tolerance earlier t) :
    t.Canonical form := by
  induction h with
  | initial made => exact Tableau.canonical_initial represents made
  | pivoted _ chosen made ih => exact ih.advance chosen made

/-- The solution that is read off a canonical tableau reports the objective of the problem at its own
    values. -/
theorem Tableau.Canonical.objectiveAt_solution {t : Tableau Rat} (h : t.Canonical form)
    (represents : form.Represents p) (pure : p.PureObjective) :
    p.objectiveAt (Solution.ofTableau form t).value =
      (Solution.ofTableau form t).objectiveValue := by
  have standard := h.objective_solution represents
  rw [represents.objective_value pure] at standard
  rw [h.objectiveValue_solution represents, Problem.objectiveAt]
  cases direction : p.direction with
  | maximize =>
    simp only [direction] at standard ⊢
    rw [standard]
  | minimize =>
    simp only [direction] at standard ⊢
    rw [← standard, neg_neg]

variable {solver : Solver Rat} {report : Report Rat}

/-- An optimal report has a solution, whose objective is that of the problem at its own values, terms
    of one variable added up, and the value of the last tableau in the direction of the problem, the
    constant added after the sign. -/
theorem objective_agrees (pure : p.PureObjective) (solved : solver.solve p = .ok report)
    (optimal : report.termination = .optimal) :
    ∃ solution last, report.solution = some solution ∧ report.tableaux.getLast? = some last ∧
      solution.objectiveValue =
        (p.objective.map fun t => t.coefficient * solution.value t.name).sum +
          p.objectiveConstant ∧
      solution.objectiveValue =
        match p.direction with
        | .maximize => p.objectiveConstant + last.objectiveValue
        | .minimize => p.objectiveConstant - last.objectiveValue := by
  obtain ⟨earlier, t, u, made, reached, chosen, tableaux, read⟩ :=
    Solver.solve_optimal solved optimal
  have represents := StandardForm.represents_of_ofProblem made
  have canonical := (reached.canonical_any represents).of_bare (Tableau.bare_of_selected chosen).symm
  refine ⟨_, u, read, by rw [tableaux, List.getLast?_concat], ?_, ?_⟩
  · exact (canonical.objectiveAt_solution represents pure).symm
  · rw [canonical.objectiveValue_solution represents]
    cases p.direction with
    | maximize => exact add_comm _ _
    | minimize => exact neg_add_eq_sub _ _

/-- Minimize `x - 2y + 3z + 7` with `y` and `z` in two terms each, where `x + y` is at most four and
    `z - x` is minus three. -/
def splitTerms : Problem Rat where
  direction := .minimize
  objective := [{ coefficient := 1, name := "x" }, { coefficient := -1, name := "y" },
    { coefficient := 1, name := "z" }, { coefficient := -1, name := "y" },
    { coefficient := 2, name := "z" }]
  objectiveConstant := 7
  constraints := [
    ⟨[{ coefficient := 1, name := "x" }, { coefficient := 1, name := "y" }], .le, 4⟩,
    ⟨[{ coefficient := -1, name := "x" }, { coefficient := 1, name := "z" }], .eq, -3⟩]

/-- At the optimum `y` is four and `z` is minus three, so the objective is `-8 - 9 + 7`. -/
theorem splitTerms_agrees : ∃ report solution last,
    Solver.solve ⟨10, 0⟩ splitTerms = .ok report ∧ report.solution = some solution ∧
      report.tableaux.getLast? = some last ∧ solution.objectiveValue = -10 ∧
      (splitTerms.objective.map fun t => t.coefficient * solution.value t.name).sum = -17 ∧
      last.objectiveValue = 17 := by
  obtain ⟨report, solved, checked⟩ := exists_ok (Solver.solve ⟨10, 0⟩ splitTerms)
    (fun r : Report Rat => r.termination == .optimal && r.solution.any fun s : Solution Rat =>
      s.objectiveValue == -10) (by decide +kernel)
  obtain ⟨stopped, found⟩ := Bool.and_eq_true_iff.mp checked
  obtain ⟨solution, last, read, listed, terms, value⟩ :=
    objective_agrees (by decide) solved (beq_iff_eq.mp stopped)
  rw [read] at found
  have ten : solution.objectiveValue = -10 := beq_iff_eq.mp found
  rw [ten] at terms value
  refine ⟨report, solution, last, solved, read, listed, ten, ?_, ?_⟩
  · simp only [splitTerms] at terms ⊢
    linarith
  · simp only [splitTerms] at value
    linarith

end Simplex
