import Simplex.Proofs.Drafts
import Simplex.Proofs.Invariance

/-!
The order of terms. Where no name stands twice in the objective nor in a left side, the terms of the
objective and of the inequalities can be put in any order: the run of a solve stays the same, down
to every tableau (`solve_reordered`). Problems that are read from texts have such names.
-/
namespace Simplex

variable {α : Type}

/-- No name stands twice in the objective nor in a left side. -/
structure Problem.NamesDiffer (p : Problem α) : Prop where
  objective : (p.objective.map Term.name).Nodup
  constraints : ∀ c ∈ p.constraints, (c.lhs.map Term.name).Nodup

/-- The same constraint, its terms in another order unless it is an equation. -/
structure Constraint.Reordered (c d : Constraint α) : Prop where
  relation : c.relation = d.relation
  rhs : c.rhs = d.rhs
  lhs : c.lhs.Perm d.lhs
  equation : c.relation = .eq → c.lhs = d.lhs

/-- The same problem, the terms of its objective and of its inequalities in another order. -/
structure Problem.Reordered (p q : Problem α) : Prop where
  direction : p.direction = q.direction
  objective : p.objective.Perm q.objective
  objectiveConstant : p.objectiveConstant = q.objectiveConstant
  constraints : List.Forall₂ Constraint.Reordered p.constraints q.constraints

theorem Draft.namesDiffer_of_build {d : Draft} {p : Problem Float} (built : d.build = .ok p) :
    p.NamesDiffer := by
  have merged := merged_of_build built
  exact ⟨merged.objective.distinct, fun c member => (merged.constraints c member).distinct⟩

namespace Expression

variable {d e : Expression α}

theorem filter_of_perm (distinct : (d.map Term.name).Nodup) (perm : d.Perm e) (n : String) :
    (d.filter fun t => t.name = n) = e.filter fun t => t.name = n := by
  have few : (d.filter fun t => t.name = n).length ≤ 1 := by
    have names : ((d.filter fun t => t.name = n).map Term.name).Nodup :=
      distinct.sublist (List.filter_sublist.map _)
    have same : (d.filter fun t => t.name = n).map Term.name =
        List.replicate (d.filter fun t => t.name = n).length n := by
      refine List.eq_replicate_iff.mpr ⟨List.length_map _, ?_⟩
      intro m member
      obtain ⟨t, kept, rfl⟩ := List.mem_map.mp member
      simpa using (List.mem_filter.mp kept).2
    rw [same] at names
    exact List.nodup_replicate.mp names
  have moved := perm.filter fun t => decide (t.name = n)
  generalize (d.filter fun t => t.name = n) = kept at few moved
  match kept with
  | [] => exact moved.nil_eq
  | [t] => exact List.singleton_perm.mp moved
  | _ :: _ :: _ => simp at few

variable [Scalar α]

/-- With distinct names the order of the terms leaves no trace in the row. -/
theorem alike_of_perm (distinct : (d.map Term.name).Nodup) (perm : d.Perm e) : d.Alike e where
  names n := (perm.map Term.name).mem_iff
  row t := by
    apply List.ext_getElem
    · simp
    · intro i inside bound
      have member : (⟨i⟩ : Symbol) ∈ t.symbols := by simpa using inside
      have entries : (t.row d).getD i 0 = (t.row e).getD i 0 := by
        rw [t.getD_row member, t.getD_row member, filter_of_perm distinct perm]
      rwa [← List.getElem_eq_getD, ← List.getElem_eq_getD] at entries

end Expression

variable [Scalar α]

theorem Constraint.Reordered.alike {c d : Constraint α} (h : c.Reordered d)
    (distinct : (c.lhs.map Term.name).Nodup) : c.Alike d := by
  have relation := h.relation
  have sides : c.upperBound.1.Perm d.upperBound.1 ∧ c.upperBound.2 = d.upperBound.2 := by
    unfold upperBound
    rw [← relation]
    cases c.relation with
    | lt | le | eq => exact ⟨h.lhs, h.rhs⟩
    | gt | ge => exact ⟨h.lhs.map _, congrArg Neg.neg h.rhs⟩
  exact {
    equation := by rw [relation]
    lhs := Expression.alike_of_perm (by simpa using distinct) sides.1
    rhs := sides.2
    order := fun equation => by rw [h.equation equation] }

theorem constraints_alike {cs ds : List (Constraint α)}
    (reordered : List.Forall₂ Constraint.Reordered cs ds)
    (distinct : ∀ c ∈ cs, (c.lhs.map Term.name).Nodup) :
    List.Forall₂ Constraint.Alike cs ds := by
  induction reordered with
  | nil => exact .nil
  | cons first _ ih =>
    exact .cons (first.alike (distinct _ List.mem_cons_self))
      (ih fun c member => distinct c (List.mem_cons_of_mem _ member))

theorem Problem.Reordered.alike {p q : Problem α} (h : p.Reordered q) (distinct : p.NamesDiffer) :
    p.Alike q where
  names n := (h.objective.map Term.name).mem_iff
  objective := by
    have kept : p.objective.variableTerms.Perm q.objective.variableTerms := h.objective.filter _
    have names : (p.objective.variableTerms.map Term.name).Nodup :=
      distinct.objective.sublist (List.filter_sublist.map _)
    have turned : (p.objective.variableTerms.map Term.negated).map Term.name =
        p.objective.variableTerms.map Term.name := by
      simp [Term.negated]
    unfold StandardForm.signedObjective
    rw [← h.direction]
    cases p.direction with
    | maximize => exact Expression.alike_of_perm names kept
    | minimize => exact Expression.alike_of_perm (turned ▸ names) (kept.map _)
  constraints := constraints_alike h.constraints distinct.constraints

/-- The order of the terms of the objective and of the inequalities does not matter: the solves fail
    in the same way, or they end in the same way after the same tableaux and with the same
    values. -/
theorem solve_reordered {p q : Problem α} (distinct : p.NamesDiffer) (reordered : p.Reordered q)
    (solver : Solver α) :
    (∃ e, solver.solve p = .error e ∧ solver.solve q = .error e) ∨
      ∃ r s, solver.solve p = .ok r ∧ solver.solve q = .ok s ∧
        r.standardForm.slackLetter = s.standardForm.slackLetter ∧
        r.standardForm.symbols = s.standardForm.symbols ∧
        r.standardForm.costs = s.standardForm.costs ∧
        r.termination = s.termination ∧ r.tableaux = s.tableaux ∧
        r.solution.map Solution.iteration = s.solution.map Solution.iteration ∧
        r.solution.map Solution.assignment = s.solution.map Solution.assignment := by
  rcases solver.solve_of_alike (reordered.alike distinct) with
    failed | ⟨r, s, mine, yours, _, _, twins⟩
  · exact .inl failed
  · refine .inr ⟨r, s, mine, yours, twins.forms.slackLetter, twins.forms.symbols,
      twins.forms.costs, twins.termination, twins.tableaux, ?_⟩
    rcases twins.solution with ⟨none, nothing⟩ | ⟨last, found, other⟩
    · rw [none, nothing]
      exact ⟨rfl, rfl⟩
    · rw [found, other]
      exact ⟨rfl, rfl⟩

/-- Maximize `0.1x + 0.2y + 0.3z` under an upper bound, a lower bound and an equation. -/
def mixture : Problem Float where
  direction := .maximize
  objective := [{ coefficient := 0.1, name := "x" }, { coefficient := 0.2, name := "y" },
    { coefficient := 0.3, name := "z" }]
  objectiveConstant := 0
  constraints := [
    ⟨[{ coefficient := 1, name := "x" }, { coefficient := 1, name := "y" },
      { coefficient := 0.7, name := "z" }], .le, 4⟩,
    ⟨[{ coefficient := -1, name := "y" }, { coefficient := -3, name := "z" }], .ge, -6⟩,
    ⟨[{ coefficient := 1, name := "x" }, { coefficient := 1, name := "w" }], .eq, 3⟩]

/-- The same problem with the objective rotated and the bounds written backwards. -/
def shuffledMixture : Problem Float where
  direction := .maximize
  objective := [{ coefficient := 0.3, name := "z" }, { coefficient := 0.1, name := "x" },
    { coefficient := 0.2, name := "y" }]
  objectiveConstant := 0
  constraints := [
    ⟨[{ coefficient := 0.7, name := "z" }, { coefficient := 1, name := "y" },
      { coefficient := 1, name := "x" }], .le, 4⟩,
    ⟨[{ coefficient := -3, name := "z" }, { coefficient := -1, name := "y" }], .ge, -6⟩,
    ⟨[{ coefficient := 1, name := "x" }, { coefficient := 1, name := "w" }], .eq, 3⟩]

/-- Two pivots lead both orders to the same optimum. -/
theorem shuffledMixture_reordered : mixture.NamesDiffer ∧ mixture.Reordered shuffledMixture ∧
    ∃ r s, Solver.standard.solve mixture = .ok r ∧ Solver.standard.solve shuffledMixture = .ok s ∧
      s.tableaux.length = 3 ∧ s.termination = .optimal ∧ r.tableaux = s.tableaux ∧
      r.solution.map Solution.assignment = s.solution.map Solution.assignment := by
  have distinct : mixture.NamesDiffer := ⟨by decide, by decide⟩
  have reordered : mixture.Reordered shuffledMixture := by
    refine ⟨rfl, ?_, rfl, .cons ?_ (.cons ?_ (.cons ?_ .nil))⟩
    · exact @List.perm_append_comm _ [_, _] [_]
    · exact ⟨rfl, rfl, (List.reverse_perm _).symm, nofun⟩
    · exact ⟨rfl, rfl, (List.reverse_perm _).symm, nofun⟩
    · exact ⟨rfl, rfl, .refl _, fun _ => rfl⟩
  obtain ⟨s, solved, checked⟩ := exists_ok (Solver.standard.solve shuffledMixture)
    (fun s => s.tableaux.length == 3 && decide (s.termination = .optimal)) (by decide +kernel)
  simp only [Bool.and_eq_true, beq_iff_eq, decide_eq_true_eq] at checked
  rcases solve_reordered distinct reordered Solver.standard with
    ⟨e, _, failed⟩ | ⟨r, t, mine, yours, _, _, _, _, tableaux, _, assignment⟩
  · rw [solved] at failed
    cases failed
  · obtain rfl : s = t := Except.ok.inj (solved.symm.trans yours)
    exact ⟨distinct, reordered, r, s, mine, yours, checked.1, checked.2, tableaux, assignment⟩

end Simplex
