import Simplex.Proofs.Slacks

/-!
What problems and standard forms mean on the rationals. An equation of the standard form gives its
slack the distance that a point keeps from the bound of the constraint, so the points that a problem
allows are those whose extension by slacks satisfies the equations and is nowhere negative.
-/
namespace Simplex

/-- A relation between two numbers, a strict one read as its weak form. -/
def Relation.Relaxed : Relation → Rat → Rat → Prop
  | .lt, a, b | .le, a, b => a ≤ b
  | .eq, a, b => a = b
  | .gt, a, b | .ge, a, b => b ≤ a

namespace Constraint

/-- The point satisfies the constraint, strict relations relaxed. -/
def Allows (c : Constraint Rat) (v : String → Rat) : Prop :=
  c.relation.Relaxed (c.lhs.value v) c.rhs

/-- The distance of a point from the bound of an inequality, negative where it is violated. -/
def slackAt (c : Constraint Rat) (v : String → Rat) : Rat :=
  match c.relation with
  | .lt | .le => c.rhs - c.lhs.value v
  | .eq => 0
  | .gt | .ge => c.lhs.value v - c.rhs

end Constraint

namespace Problem

/-- No left side of a constraint has a constant. -/
def BoundsOnly (p : Problem Rat) : Prop := ∀ c ∈ p.constraints, ∀ t ∈ c.lhs, t.isConstant = false

/-- The objective has no constant among its terms. -/
def PureObjective (p : Problem Rat) : Prop := ∀ t ∈ p.objective, t.isConstant = false

instance (p : Problem Rat) : Decidable p.BoundsOnly :=
  inferInstanceAs (Decidable (∀ c ∈ p.constraints, ∀ t ∈ c.lhs, t.isConstant = false))

instance (p : Problem Rat) : Decidable p.PureObjective :=
  inferInstanceAs (Decidable (∀ t ∈ p.objective, t.isConstant = false))

/-- The points that a problem allows: no variable is negative and no constraint is violated. -/
structure Feasible (p : Problem Rat) (v : String → Rat) : Prop where
  nonneg : ∀ n ∈ p.variableNames, 0 ≤ v n
  allows : ∀ c ∈ p.constraints, c.Allows v

/-- The objective of a problem at a point, its constant included. -/
def objectiveAt (p : Problem Rat) (v : String → Rat) : Rat :=
  p.objective.value v + p.objectiveConstant

end Problem

namespace StandardConstraint

/-- The terms of an equation besides its slack. -/
def rest (e : StandardConstraint Rat) : Expression Rat :=
  e.lhs.filter fun t => decide (e.slack ≠ some t.name)

/-- What the slack must be for the equation to hold. -/
def slackValue (e : StandardConstraint Rat) (v : String → Rat) : Rat := e.rhs - e.rest.value v

end StandardConstraint

namespace StandardForm

/-- The point satisfies every equation. -/
def Satisfied (form : StandardForm Rat) (w : String → Rat) : Prop :=
  ∀ e ∈ form.constraints, e.lhs.value w = e.rhs

/-- The extension of a point: each slack has the value that makes its equation hold. -/
def extend (form : StandardForm Rat) (v : String → Rat) (n : String) : Rat :=
  match form.constraints.find? fun e => decide (e.slack = some n) with
  | some e => e.slackValue v
  | none => v n

namespace States

variable {letter : Char} {c : Constraint Rat} {e : StandardConstraint Rat}

theorem slack_eq_none_iff (h : States letter c e) : e.slack = none ↔ c.relation = .eq := by
  unfold States at h
  cases relation : c.relation <;> rw [relation] at h
  case eq => subst h; simp
  case lt | le | gt | ge => obtain ⟨k, rfl⟩ := h; simp [withSlack]

/-- The two sides of an equation differ by as much as the slack is off the distance. -/
theorem value_sub_rhs (h : States letter c e) {n : String} (slack : e.slack = some n)
    (w : String → Rat) : e.lhs.value w - e.rhs = w n - c.slackAt w := by
  unfold States at h
  unfold Constraint.slackAt
  cases relation : c.relation <;> rw [relation] at h
  case eq => subst h; cases slack
  case lt | le =>
    obtain ⟨k, rfl⟩ := h
    cases slack
    simp only [withSlack, Expression.value_append, Expression.value_cons, Expression.value_nil]
    ring
  case gt | ge =>
    obtain ⟨k, rfl⟩ := h
    cases slack
    simp only [withSlack, Expression.value_append, Expression.value_cons, Expression.value_nil,
      Expression.value_negated]
    ring

theorem allows_iff_of_slack (h : States letter c e) {n : String} (slack : e.slack = some n)
    (w : String → Rat) : c.Allows w ↔ 0 ≤ c.slackAt w := by
  have inequality : c.relation ≠ .eq := fun equation => by
    rw [h.slack_eq_none_iff.mpr equation] at slack; cases slack
  unfold Constraint.Allows Constraint.slackAt
  cases relation : c.relation
  case eq => exact absurd relation inequality
  case lt | le | gt | ge => exact sub_nonneg.symm

theorem allows_iff_of_none (h : States letter c e) (slack : e.slack = none) (w : String → Rat) :
    c.Allows w ↔ e.lhs.value w = e.rhs := by
  have relation := h.slack_eq_none_iff.mp slack
  unfold States at h
  rw [relation] at h
  subst h
  simp [Constraint.Allows, relation, Relation.Relaxed]

/-- Where an equation holds, its constraint does just if the slack is not negative. -/
theorem allows_iff (h : States letter c e) {w : String → Rat} (holds : e.lhs.value w = e.rhs) :
    c.Allows w ↔ ∀ n, e.slack = some n → 0 ≤ w n := by
  cases slack : e.slack with
  | none => simpa using (h.allows_iff_of_none slack w).mpr holds
  | some n =>
    have distance : w n = c.slackAt w := by
      have := h.value_sub_rhs slack w
      linarith
    rw [h.allows_iff_of_slack slack, ← distance]
    simp

end States

private theorem value_zero_terms (names : List String) (w : String → Rat) :
    Expression.value (names.map fun n => { coefficient := 0, name := n }) w = 0 := by
  induction names with
  | nil => rfl
  | cons n rest ih => rw [List.map_cons, Expression.value_cons, ih]; simp

private theorem sum_slacks {letter : Char} {cs : List (Constraint Rat)}
    {es : List (StandardConstraint Rat)} (related : List.Forall₂ (States letter) cs es)
    {v w : String → Rat} (values : ∀ c, ∀ e ∈ es, States letter c e →
      ∀ n, e.slack = some n → w n = c.slackAt v) :
    ((es.filterMap StandardConstraint.slack).map w).sum = (cs.map fun c => c.slackAt v).sum := by
  induction related with
  | nil => rfl
  | @cons c e _ _ states _ ih =>
    have later := ih fun c' e' member => values c' e' (List.mem_cons_of_mem _ member)
    cases slack : e.slack with
    | none =>
      have equality : c.slackAt v = 0 := by
        simp [Constraint.slackAt, states.slack_eq_none_iff.mp slack]
      rw [List.filterMap_cons_none slack, later, List.map_cons, List.sum_cons, equality, zero_add]
    | some n =>
      rw [List.filterMap_cons_some slack, List.map_cons, List.sum_cons, later, List.map_cons,
        List.sum_cons, values c e List.mem_cons_self states n slack]

namespace Represents

variable {p : Problem Rat} {form : StandardForm Rat} (h : form.Represents p)
include h

/-- A point that satisfies the equations is allowed by the problem just if no column is negative
    there. -/
theorem feasible_iff (bounds : p.BoundsOnly) {w : String → Rat} (satisfied : form.Satisfied w) :
    p.Feasible w ↔ ∀ n ∈ form.symbols.names, 0 ≤ w n := by
  constructor
  · intro feasible n member
    rcases (h.mem_names_iff bounds).mp member with variableName | slack
    · exact feasible.nonneg n variableName
    · obtain ⟨e, equation, slack⟩ := List.mem_filterMap.mp slack
      obtain ⟨c, constraint, states⟩ := h.constraint_of_equation equation
      exact (states.allows_iff (satisfied e equation)).mp (feasible.allows c constraint) n slack
  · intro nonneg
    refine ⟨fun n member => nonneg n ((h.mem_names_iff bounds).mpr (.inl member)), ?_⟩
    intro c constraint
    obtain ⟨e, equation, states⟩ := h.equation_of_constraint constraint
    refine (states.allows_iff (satisfied e equation)).mpr fun n slack => ?_
    exact nonneg n (h.slack_known (List.mem_filterMap.mpr ⟨e, equation, slack⟩))

/-- The slack stands once in its equation, with the coefficient one. -/
theorem value_rest {e : StandardConstraint Rat} (equation : e ∈ form.constraints) {n : String}
    (slack : e.slack = some n) (w : String → Rat) : e.lhs.value w = e.rest.value w + w n := by
  obtain ⟨c, constraint, states⟩ := h.constraint_of_equation equation
  obtain ⟨body, names, lhs⟩ := states.lhs
  have isSlack : n ∈ form.slacks := List.mem_filterMap.mpr ⟨e, equation, slack⟩
  have others : ∀ t ∈ body, t.name ≠ n := by
    intro t member
    obtain ⟨u, listed, same⟩ := List.mem_map.mp (names ▸ List.mem_map_of_mem member)
    exact same ▸ h.slack_ne isSlack
      (List.mem_append_right _ (List.mem_flatMap.mpr ⟨c, constraint, listed⟩))
  have rest : e.rest = body := by
    unfold StandardConstraint.rest
    rw [lhs, slack, List.filter_append, List.filter_eq_self.mpr]
    · simp [slackTerm]
    · intro t member
      simpa using (others t member).symm
  rw [rest, lhs, slack]
  simp [slackTerm]

/-- The extension gives a slack what makes its own equation hold. -/
theorem extend_eq_slackValue {e : StandardConstraint Rat} (equation : e ∈ form.constraints)
    {n : String} (slack : e.slack = some n) (v : String → Rat) :
    form.extend v n = e.slackValue v := by
  have found : form.constraints.find? (fun e => decide (e.slack = some n)) = some e := by
    cases found : form.constraints.find? (fun e => decide (e.slack = some n)) with
    | none => simpa [slack] using List.find?_eq_none.mp found e equation
    | some d =>
      obtain ⟨i, he⟩ := List.mem_iff_getElem?.mp equation
      obtain ⟨j, hd⟩ := List.mem_iff_getElem?.mp (List.mem_of_find?_eq_some found)
      have again : d.slack = some n := by simpa using List.find?_some found
      rw [h.slack_position he hd slack again, hd] at he
      exact he
  simp only [extend, found]

/-- The extension gives a slack the distance from the bound of its constraint. -/
theorem extend_slack {c : Constraint Rat} {e : StandardConstraint Rat}
    (equation : e ∈ form.constraints) (states : States form.slackLetter c e) {n : String}
    (slack : e.slack = some n) (v : String → Rat) : form.extend v n = c.slackAt v := by
  have sides := states.value_sub_rhs slack v
  rw [h.value_rest equation slack] at sides
  rw [h.extend_eq_slackValue equation slack, StandardConstraint.slackValue]
  linarith

theorem extend_name {t : Term Rat} (member : t ∈ p.terms) (v : String → Rat) :
    form.extend v t.name = v t.name := by
  have none : form.constraints.find? (fun e => decide (e.slack = some t.name)) = none := by
    refine List.find?_eq_none.mpr fun e equation => ?_
    intro slack
    exact h.slack_ne (List.mem_filterMap.mpr ⟨e, equation, of_decide_eq_true slack⟩) member rfl
  simp only [extend, none]

theorem value_extend {c : Constraint Rat} (constraint : c ∈ p.constraints) (v : String → Rat) :
    c.lhs.value (form.extend v) = c.lhs.value v :=
  Expression.value_congr fun _ member =>
    h.extend_name (List.mem_append_right _ (List.mem_flatMap.mpr ⟨c, constraint, member⟩)) v

theorem extend_variable {n : String} (member : n ∈ p.variableNames) (v : String → Rat) :
    form.extend v n = v n := by
  obtain ⟨_, t, listed, rfl⟩ := p.mem_variableNames.mp member
  exact h.extend_name listed v

theorem allows_extend {c : Constraint Rat} (constraint : c ∈ p.constraints) (v : String → Rat) :
    c.Allows (form.extend v) ↔ c.Allows v := by
  unfold Constraint.Allows
  rw [h.value_extend constraint]

theorem feasible_extend {v : String → Rat} : p.Feasible (form.extend v) ↔ p.Feasible v := by
  constructor
  · rintro ⟨nonneg, allows⟩
    exact ⟨fun n member => h.extend_variable member v ▸ nonneg n member,
      fun c constraint => (h.allows_extend constraint v).mp (allows c constraint)⟩
  · rintro ⟨nonneg, allows⟩
    exact ⟨fun n member => (h.extend_variable member v).symm ▸ nonneg n member,
      fun c constraint => (h.allows_extend constraint v).mpr (allows c constraint)⟩

theorem satisfied_extend_of_allows {v : String → Rat} (allows : ∀ c ∈ p.constraints, c.Allows v) :
    form.Satisfied (form.extend v) := by
  intro e equation
  obtain ⟨c, constraint, states⟩ := h.constraint_of_equation equation
  cases slack : e.slack with
  | none =>
    exact (states.allows_iff_of_none slack _).mp
      ((h.allows_extend constraint v).mpr (allows c constraint))
  | some n =>
    have sides := states.value_sub_rhs slack (form.extend v)
    have distance : c.slackAt (form.extend v) = c.slackAt v := by
      unfold Constraint.slackAt
      rw [h.value_extend constraint]
    rw [h.extend_slack equation states slack, distance] at sides
    linarith

theorem satisfied_extend {v : String → Rat} (feasible : p.Feasible v) :
    form.Satisfied (form.extend v) := h.satisfied_extend_of_allows feasible.allows

theorem objective_value (pure : p.PureObjective) (w : String → Rat) :
    form.objective.value w =
      match p.direction with
      | .maximize => p.objective.value w
      | .minimize => -p.objective.value w := by
  have all : p.objective.variableTerms = p.objective := by
    refine List.filter_eq_self.mpr fun t member => ?_
    simp [pure t member]
  rw [h.objective, Expression.value_append, value_zero_terms, add_zero, signedObjective, all]
  cases p.direction with
  | maximize => rfl
  | minimize => exact Expression.value_negated w p.objective

/-- The columns of an extended point add up to its variables and its slacks. -/
theorem sum_extend (bounds : p.BoundsOnly) (v : String → Rat) :
    (form.symbols.names.map (form.extend v)).sum =
      (p.variableNames.map v).sum + (p.constraints.map fun c => c.slackAt v).sum := by
  have sameVariables : p.variableNames.map (form.extend v) = p.variableNames.map v :=
    List.map_congr_left fun n variableName => h.extend_variable variableName v
  have slackValues : (form.slacks.map (form.extend v)).sum =
      (p.constraints.map fun c => c.slackAt v).sum :=
    sum_slacks h.states fun c e equation states n slack => h.extend_slack equation states slack v
  rw [((h.names_perm bounds).map _).sum_eq, List.map_append, List.sum_append, sameVariables,
    slackValues]

end Represents

end StandardForm

end Simplex
