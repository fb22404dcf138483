import Simplex.Proofs.Inspection
import Simplex.Proofs.Runs
import Mathlib.Data.List.Chain

/-!
Histories on the rationals. The tableaux of a history that was reached form a trace: every one is
canonical, and each follows the one before by a pivot. A report ends with the last one of a trace.
-/
namespace Simplex

/-- The second tableau is what pivoting made of the first, up to marks. -/
def Follows (form : StandardForm Rat) (tolerance : Rat) (before after : Tableau Rat) : Prop :=
  ∃ (t next : Tableau Rat) (p : Pivot Rat), t.Canonical form ∧
    t.evaluate.selectPivot tolerance = (before, .ok (.pivot p)) ∧
    before.pivoted form.symbols = .ok next ∧ after.bare = next.bare

/-- Canonical tableaux that follow one another. -/
structure Trace (form : StandardForm Rat) (tolerance : Rat) (tableaux : List (Tableau Rat)) :
    Prop where
  chain : tableaux.IsChain (Follows form tolerance)
  canonical : ∀ t ∈ tableaux, t.Canonical form

namespace Reached

variable {p : Problem Rat} {form : StandardForm Rat} {tolerance : Rat}
variable {earlier : List (Tableau Rat)} {t u : Tableau Rat}

theorem canonical (represents : form.Represents p) (nonneg : 0 ≤ tolerance)
    (h : Reached form tolerance earlier t) : t.Canonical form := by
  induction h with
  | initial made => exact Tableau.canonical_initial represents made
  | pivoted _ chosen made ih =>
    have inspected := ih.of_bare (Tableau.bare_of_selected chosen).symm
    obtain ⟨_, source, pivots, _⟩ := Tableau.pivot_ok ih.columnsInOrder ih.rowsNumbered nonneg chosen
    exact pivots.canonical_next inspected.toFits inspected made

/-- A history that was reached is a trace, with marks on its last tableau or without. -/
theorem trace (represents : form.Represents p) (nonneg : 0 ≤ tolerance)
    (h : Reached form tolerance earlier t) (same : u.bare = t.bare) :
    Trace form tolerance (earlier.reverse ++ [u]) := by
  have last := (h.canonical represents nonneg).of_bare same.symm
  induction h generalizing u with
  | initial =>
    refine ⟨.singleton _, ?_⟩
    intro v member
    rw [List.mem_singleton.mp member]
    exact last
  | @pivoted earlier t v next p reached chosen made ih =>
    have inspected := Tableau.bare_of_selected chosen
    have canonical := reached.canonical represents nonneg
    have before := ih inspected (canonical.of_bare inspected.symm)
    rw [List.reverse_cons]
    constructor
    · rw [List.append_assoc]
      refine List.isChain_append_cons_cons.mpr ⟨before.chain, ?_, .singleton _⟩
      exact ⟨t, next, p, canonical, chosen, made, same⟩
    · intro w member
      rcases List.mem_append.mp member with earlier | own
      · exact before.canonical w earlier
      · rw [List.mem_singleton.mp own]
        exact last

end Reached

namespace Solver

variable {p : Problem Rat} {tolerance : Rat} {cap : Nat} {report : Report Rat}

/-- An optimal report: in the last tableau of its trace no column enters. -/
theorem optimal_trace (nonneg : 0 ≤ tolerance)
    (solved : Solver.solve ⟨cap, tolerance⟩ p = .ok report)
    (optimal : report.termination = .optimal) :
    report.standardForm.Represents p ∧
      Trace report.standardForm tolerance report.tableaux ∧
      ∃ last, report.tableaux.getLast? = some last ∧
        report.solution = some (Solution.ofTableau report.standardForm last) ∧
        last.enteringColumn? tolerance = none ∧ ∀ s ∈ last.columns, -tolerance ≤ last.price s := by
  obtain ⟨earlier, t, u, known, reached, chosen, tableaux, solution⟩ :=
    solve_optimal solved optimal
  have represents := StandardForm.represents_of_ofProblem known
  have fits := (reached.canonical represents nonneg).toFits
  rw [tableaux]
  refine ⟨represents, reached.trace represents nonneg (Tableau.bare_of_selected chosen), u,
    List.getLast?_concat, solution, ?_, Tableau.optimal_ok fits.columnsInOrder chosen⟩
  obtain ⟨_, none, rfl⟩ := Tableau.selectPivot_ok chosen
  exact none

/-- An unbounded report: in the last tableau of its trace a column enters and no row leaves. -/
theorem unbounded_trace (nonneg : 0 ≤ tolerance)
    (solved : Solver.solve ⟨cap, tolerance⟩ p = .ok report)
    (unbounded : report.termination = .unbounded) :
    report.standardForm.Represents p ∧
      Trace report.standardForm tolerance report.tableaux ∧
      ∃ last s, report.tableaux.getLast? = some last ∧ last.Enters s tolerance ∧
        ∀ r ∈ last.rows, ∀ q, r.ratio = some q → q ≤ 0 := by
  obtain ⟨earlier, t, u, s, known, reached, chosen, tableaux⟩ :=
    solve_unbounded solved unbounded
  have represents := StandardForm.represents_of_ofProblem known
  have fits := (reached.canonical represents nonneg).toFits
  obtain ⟨enters, none⟩ := Tableau.unbounded_ok fits.columnsInOrder chosen
  rw [tableaux]
  exact ⟨represents, reached.trace represents nonneg (Tableau.bare_of_selected chosen), u, s,
    List.getLast?_concat, enters, none⟩

end Solver

end Simplex
