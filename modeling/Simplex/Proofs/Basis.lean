import Simplex.Proofs.Double
import Simplex.Proofs.Extraction
import Simplex.Proofs.Runs
import Simplex.Proofs.UnitColumns

/-!
The basis over a run. Every tableau of a history has distinct bases with unit columns, exact ones
where all coefficients before it are finite, and none of them enters. So the solution that is read
off a tableau has an entry for each row.
-/
namespace Simplex

open Scalar (UnitLaws)

variable {α : Type} [Scalar α]

theorem Tableau.Based.bases_nodup {form : StandardForm α} {t : Tableau α} (h : t.Based form) :
    (t.rows.map Row.basis).Nodup :=
  List.Nodup.map_on (fun r member o other same => h.distinct o other r member same)
    h.rowsNumbered.rows_nodup

namespace Reached

variable [UnitLaws α] {p : Problem α} {form : StandardForm α} {tolerance : α}
variable {earlier : List (Tableau α)} {t : Tableau α}

theorem based (represents : form.Represents p) (nonneg : ¬ tolerance < 0)
    (h : Reached form tolerance earlier t) : t.Based form := by
  induction h with
  | initial made => exact Tableau.based_initial represents made
  | pivoted _ chosen made ih =>
    obtain ⟨source, turns⟩ := ih.turns nonneg chosen
    exact turns.based_next (ih.of_bare (Tableau.bare_of_selected chosen).symm) made

/-- Where all coefficients before a tableau are finite, its basis columns are exact. -/
theorem exactUnits (represents : form.Represents p) (nonneg : ¬ tolerance < 0)
    (h : Reached form tolerance earlier t) (finite : ∀ u ∈ earlier, u.FiniteCoefficients) :
    t.ExactUnits := by
  induction h with
  | initial made => exact Tableau.initial_exactUnits represents made
  | pivoted reached chosen made ih =>
    obtain ⟨own, others⟩ := List.forall_mem_cons.mp finite
    have based := reached.based represents nonneg
    have same := (Tableau.bare_of_selected chosen).symm
    obtain ⟨source, turns⟩ := based.turns nonneg chosen
    exact turns.exactUnits_next (based.toFits.of_bare same) ((ih others).of_bare same) own made

end Reached

/-- Over a run on doubles the bases stay distinct, with their names and costs; a basis column has
    the entries of a unit column or undefined ones, and these only after a coefficient that is not
    finite; no basis column enters; and a solution has the value of every row. -/
theorem basis_kept {p : Problem Float} {tolerance : Float} (nonneg : ¬ tolerance < 0)
    {first : History Float} (framed : Session.firstHistory p = .ok first) :
    ∀ calls s, (Session.ofProblem p tolerance).after calls = s →
      (∀ k t, s.tableaux[k]? = some t →
        t.Based first.form ∧ (t.rows.map Row.basis).Nodup ∧
        (∀ r ∈ t.rows, ∀ o ∈ t.rows,
          (o.coefficient r.basis == if o.index = r.index then 1 else 0) = true ∨
            (o.coefficient r.basis).isNaN = true) ∧
        ((∀ u ∈ s.tableaux.take k, u.FiniteCoefficients) → t.ExactUnits) ∧
        (∀ c, t.evaluate.enteringColumn? tolerance = some c → ∀ r ∈ t.rows, r.basis ≠ c) ∧
        (Solution.ofTableau first.form t).assignment.entries.Perm
          (t.rows.map fun r => (r.basisVariable, r.rhs)) ∧
        ∀ r ∈ t.rows,
          (Solution.ofTableau first.form t).assignment.get? r.basisVariable = some r.rhs) ∧
      ∀ solution, s.solution? = some solution → ∃ last, s.tableaux.getLast? = some last ∧
        solution = Solution.ofTableau first.form last := by
  rintro calls s rfl
  have lawful : ((Session.ofProblem p tolerance).after calls).Lawful p tolerance :=
    Session.Lawful.ofProblem.after calls
  refine ⟨fun k t found => ?_, fun solution => lawful.solution_ok framed⟩
  have represents := StandardForm.represents_of_ofProblem (Session.firstHistory_ok framed).1
  obtain ⟨plain, reached, same⟩ := lawful.reached_of_getElem? framed found
  have based : t.Based first.form := (reached.based represents nonneg).of_bare same.symm
  refine ⟨based, based.bases_nodup, fun r member o other => ?_, fun finite => ?_,
    fun c entering => ?_, based.toFits.entries_solution_perm based.distinct,
    fun r member => based.toFits.get?_solution based.distinct member⟩
  · rw [← Double.isUndefined_eq_isNaN]
    exact based.unit r member o other
  · have exact := reached.exactUnits represents nonneg fun u earlier =>
      finite u (List.mem_reverse.mp earlier)
    exact exact.of_bare same.symm
  · exact (based.entering_fresh nonneg entering).2

/-- Maximize the sum of `x` and `y` under two bounds whose pivots have to be rounded. -/
def thirds : Problem Float where
  direction := .maximize
  objective := [{ coefficient := 1, name := "x" }, { coefficient := 1, name := "y" }]
  objectiveConstant := 0
  constraints := [⟨[{ coefficient := 3, name := "x" }, { coefficient := 1, name := "y" }], .le, 1⟩,
    ⟨[{ coefficient := 1, name := "x" }, { coefficient := 7, name := "y" }], .le, 2⟩]

/-- Two rounded pivots, and every basis column is an exact unit column. -/
theorem thirds_basis_kept :
    ((Session.ofProblem thirds 0).after [.frame, .run 5]).tableaux.length = 3 ∧
    ∀ t ∈ ((Session.ofProblem thirds 0).after [.frame, .run 5]).tableaux, t.ExactUnits := by
  refine ⟨by decide +kernel, fun t member => ?_⟩
  obtain ⟨first, framed, _⟩ := exists_ok (Session.firstHistory thirds) (fun _ => true)
    (by decide +kernel)
  have finite : ∀ u ∈ ((Session.ofProblem thirds 0).after [.frame, .run 5]).tableaux,
      u.FiniteCoefficients := by decide +kernel
  obtain ⟨k, found⟩ := List.mem_iff_getElem?.mp member
  have kept := (basis_kept (by decide +kernel) framed _ _ rfl).1 k t found
  exact kept.2.2.2.1 fun u earlier => finite u (List.mem_of_mem_take earlier)

end Simplex
