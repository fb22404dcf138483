import Simplex.Proofs.Columns

/-!
Slacks. The slack letter starts no variable, so slack names are new and different from each other;
every slack stands in one equation only, with the coefficient one.
-/
namespace Simplex

namespace Problem

variable {α : Type} (p : Problem α)

theorem mem_variableNames {n : String} :
    n ∈ p.variableNames ↔ n ≠ "" ∧ ∃ t ∈ p.terms, t.name = n := by
  simp only [variableNames, Expression.variableNames, Expression.variableTerms, List.mem_eraseDups,
    List.mem_map, List.mem_filter, Term.isConstant, Bool.not_eq_true', String.isEmpty_eq_false_iff]
  constructor
  · rintro ⟨t, ⟨member, named⟩, rfl⟩; exact ⟨named, t, member, rfl⟩
  · rintro ⟨named, t, member, rfl⟩; exact ⟨t, ⟨member, named⟩, rfl⟩

private theorem eraseDups_nodup (names : List String) : names.eraseDups.Nodup := by
  match names with
  | [] => exact List.nodup_nil
  | n :: rest =>
    rw [List.eraseDups_cons, List.nodup_cons]
    refine ⟨?_, eraseDups_nodup _⟩
    intro again
    have := List.mem_filter.mp (List.mem_eraseDups.mp again)
    simp at this
termination_by names.length
decreasing_by
  have := List.length_filter_le (fun m => !m == n) rest
  simp only [List.length_cons]
  omega

theorem variableNames_nodup : p.variableNames.Nodup := eraseDups_nodup _

end Problem

namespace StandardForm

theorem toList_slackName (letter : Char) (number : Nat) :
    (slackName letter number).toList = letter :: Nat.toDigits 10 number := by
  simp [slackName, Char.toString]

theorem slackName_inj {letter : Char} {m n : Nat} :
    slackName letter m = slackName letter n ↔ m = n := by
  constructor
  · intro same
    have digits := congrArg String.toList same
    simp only [toList_slackName, List.cons.injEq, true_and] at digits
    rw [← Nat.ofDigitChars_ten_toDigits (n := m), digits, Nat.ofDigitChars_ten_toDigits]
  · rintro rfl; rfl

variable {α : Type} {p : Problem α} {letter : Char}

theorem ne_slackName_of_slackLetter? (chosen : slackLetter? p = some letter) {t : Term α}
    (member : t ∈ p.terms) (number : Nat) : t.name ≠ slackName letter number := by
  intro same
  have free := List.find?_some chosen
  simp only [Bool.not_eq_true', List.contains_eq_mem, decide_eq_false_iff_not] at free
  apply free
  refine List.mem_filterMap.mpr ⟨t, member, ?_⟩
  rw [same, toList_slackName]
  rfl

variable [Scalar α]

/-- An equation that states a constraint, with a slack if the constraint is an inequality. -/
def States (letter : Char) (c : Constraint α) (e : StandardConstraint α) : Prop :=
  match c.relation with
  | .eq => e = ⟨c.lhs, c.rhs, none⟩
  | .lt | .le => ∃ k, e = withSlack (slackName letter k) c.lhs c.rhs
  | .gt | .ge => ∃ k, e = withSlack (slackName letter k) (c.lhs.map Term.negated) (-c.rhs)

private theorem getElem?_right {β γ : Type} {R : β → γ → Prop} {xs : List β} {ys : List γ}
    (h : List.Forall₂ R xs ys) {i : Nat} {x : β} (found : xs[i]? = some x) :
    ∃ y, ys[i]? = some y ∧ R x y := by
  obtain ⟨length, each⟩ := List.forall₂_iff_get.mp h
  obtain ⟨inside, rfl⟩ := List.getElem?_eq_some_iff.mp found
  exact ⟨ys[i], List.getElem?_eq_getElem _, each i inside (length ▸ inside)⟩

theorem equations_state (letter : Char) (used : Nat) (cs : List (Constraint α)) :
    List.Forall₂ (States letter) cs (equations letter used cs) := by
  induction cs generalizing used with
  | nil => exact .nil
  | cons c rest ih =>
    cases relation : c.relation with
    | eq =>
      simp only [equations, relation]
      exact .cons (by simp [States, relation]) (ih used)
    | lt | le | gt | ge =>
      simp only [equations, relation]
      exact .cons (by simp only [States, relation]; exact ⟨_, rfl⟩) (ih (used + 1))

/-- The term that a slack adds to its equation. -/
def slackTerm (slack : String) : Term α := { coefficient := 1, name := slack }

/-- An equation is its constraint's left side, up to sign, followed by the slack. -/
theorem States.lhs {c : Constraint α} {e : StandardConstraint α} (h : States letter c e) :
    ∃ body : Expression α, body.map Term.name = c.lhs.map Term.name ∧
      e.lhs = body ++ e.slack.toList.map slackTerm := by
  unfold States at h
  cases relation : c.relation <;> rw [relation] at h
  case eq => subst h; exact ⟨c.lhs, rfl, by simp⟩
  case lt | le => obtain ⟨k, rfl⟩ := h; exact ⟨c.lhs, rfl, rfl⟩
  case gt | ge =>
    obtain ⟨k, rfl⟩ := h
    exact ⟨c.lhs.map Term.negated, by simp [Term.negated], rfl⟩

theorem States.eq {c : Constraint α} {e : StandardConstraint α} (h : States letter c e)
    (relation : c.relation = .eq) : e = ⟨c.lhs, c.rhs, none⟩ := by
  simpa only [States, relation] using h

theorem States.exists_slack {c : Constraint α} {e : StandardConstraint α} (h : States letter c e)
    (relation : c.relation ≠ .eq) : ∃ n, e.slack = some n := by
  unfold States at h
  cases same : c.relation <;> rw [same] at h
  case eq => exact absurd same relation
  all_goals
    obtain ⟨k, rfl⟩ := h
    exact ⟨_, rfl⟩

/-- The slacks of a standard form, in the order of the equations. -/
def slacks (form : StandardForm α) : List String :=
  form.constraints.filterMap StandardConstraint.slack

/-- The dense rows of the equations. -/
def dense (form : StandardForm α) : List (List α) :=
  form.constraints.map fun e => form.symbols.row e.lhs

theorem slacks_equations (letter : Char) (used : Nat) (cs : List (Constraint α)) :
    (equations letter used cs).filterMap StandardConstraint.slack =
      (List.range' (used + 1)
        ((equations letter used cs).filterMap StandardConstraint.slack).length).map
          (slackName letter) := by
  induction cs generalizing used with
  | nil => rfl
  | cons c rest ih =>
    cases relation : c.relation with
    | eq => simpa [equations, relation] using ih used
    | lt | le | gt | ge =>
      have later := ih (used + 1)
      simp only [equations, relation, withSlack, List.filterMap_cons, List.length_cons,
        List.range'_succ, List.map_cons]
      rw [← later]

/-- What a standard form takes over from its problem. -/
structure Represents (form : StandardForm α) (p : Problem α) : Prop where
  constrained : p.constraints ≠ []
  hasVariable : ∃ t ∈ p.objective, t.isConstant = false
  letter : slackLetter? p = some form.slackLetter
  direction : form.direction = p.direction
  objectiveConstant : form.objectiveConstant = p.objectiveConstant
  constraints : form.constraints = equations form.slackLetter 0 p.constraints
  objective : form.objective = signedObjective p ++
    form.slacks.map fun slack => { coefficient := 0, name := slack }
  slackCount : form.slackCount = form.slacks.length
  symbols : form.symbols = SymbolTable.ofNames
    ((form.objective ++ form.constraints.flatMap StandardConstraint.lhs).map Term.name)

theorem represents_of_ofProblem {form : StandardForm α} (framed : ofProblem p = .ok form) :
    form.Represents p := by
  unfold ofProblem at framed
  split at framed
  · cases framed
  · rename_i constrained
    split at framed
    · cases framed
    · rename_i constants
      split at framed
      · cases framed
      · rename_i letter chosen
        cases framed
        refine ⟨?_, ?_, chosen, rfl, rfl, rfl, rfl, rfl, rfl⟩
        · simpa using constrained
        · simpa using constants

theorem name_mem_signedObjective {n : String} :
    (∃ t ∈ signedObjective p, t.name = n) ↔ ∃ t ∈ p.objective, t.isConstant = false ∧ t.name = n := by
  unfold signedObjective
  cases p.direction with
  | maximize => simp [Expression.variableTerms, and_assoc]
  | minimize => simp [Expression.variableTerms, Term.negated, and_assoc]

namespace Represents

variable {form : StandardForm α} (h : form.Represents p)
include h

theorem states : List.Forall₂ (States form.slackLetter) p.constraints form.constraints := by
  rw [h.constraints]
  exact equations_state _ _ _

theorem length_constraints : form.constraints.length = p.constraints.length :=
  h.states.length_eq.symm

theorem equation_at {i : Nat} {c : Constraint α} (found : p.constraints[i]? = some c) :
    ∃ e, form.constraints[i]? = some e ∧ States form.slackLetter c e :=
  getElem?_right h.states found

theorem constraint_at {i : Nat} {e : StandardConstraint α}
    (own : form.constraints[i]? = some e) :
    ∃ c, p.constraints[i]? = some c ∧ States form.slackLetter c e :=
  getElem?_right h.states.flip own

theorem equation_of_constraint {c : Constraint α} (member : c ∈ p.constraints) :
    ∃ e ∈ form.constraints, States form.slackLetter c e := by
  obtain ⟨i, found⟩ := List.mem_iff_getElem?.mp member
  obtain ⟨e, own, states⟩ := h.equation_at found
  exact ⟨e, List.mem_of_getElem? own, states⟩

theorem constraint_of_equation {e : StandardConstraint α} (member : e ∈ form.constraints) :
    ∃ c ∈ p.constraints, States form.slackLetter c e := by
  obtain ⟨i, own⟩ := List.mem_iff_getElem?.mp member
  obtain ⟨c, found, states⟩ := h.constraint_at own
  exact ⟨c, List.mem_of_getElem? found, states⟩

theorem slacks_eq : form.slacks =
    (List.range' 1 form.slackCount).map (slackName form.slackLetter) := by
  rw [h.slackCount]
  unfold slacks
  rw [h.constraints]
  exact slacks_equations _ 0 _

theorem slacks_nodup : form.slacks.Nodup := by
  rw [h.slacks_eq]
  exact List.Nodup.map (fun _ _ same => slackName_inj.mp same) List.nodup_range'

theorem slack_position {i j : Nat} {e d : StandardConstraint α} {n : String}
    (he : form.constraints[i]? = some e) (hd : form.constraints[j]? = some d)
    (slack : e.slack = some n) (again : d.slack = some n) : i = j := by
  have distinct := List.pairwise_iff_getElem.mp (List.pairwise_filterMap.mp h.slacks_nodup)
  obtain ⟨hi, rfl⟩ := List.getElem?_eq_some_iff.mp he
  obtain ⟨hj, rfl⟩ := List.getElem?_eq_some_iff.mp hd
  rcases Nat.lt_trichotomy i j with before | same | after
  · exact absurd rfl (distinct i j hi hj before n slack n again)
  · exact same
  · exact absurd rfl (distinct j i hj hi after n again n slack)

theorem exists_slackName {n : String} (slack : n ∈ form.slacks) :
    ∃ k, n = slackName form.slackLetter k := by
  rw [h.slacks_eq, List.mem_map] at slack
  obtain ⟨k, _, rfl⟩ := slack
  exact ⟨k, rfl⟩

theorem slack_ne {n : String} (slack : n ∈ form.slacks) {t : Term α} (member : t ∈ p.terms) :
    t.name ≠ n := by
  obtain ⟨k, rfl⟩ := h.exists_slackName slack
  exact ne_slackName_of_slackLetter? h.letter member k

theorem objective_known : ∀ t ∈ form.objective, t.name ∈ form.symbols.names := by
  intro t member
  rw [h.symbols, SymbolTable.mem_ofNames]
  exact List.mem_map_of_mem (List.mem_append_left _ member)

theorem equation_known {e : StandardConstraint α} (equation : e ∈ form.constraints) :
    ∀ t ∈ e.lhs, t.name ∈ form.symbols.names := by
  intro t member
  rw [h.symbols, SymbolTable.mem_ofNames]
  exact List.mem_map_of_mem
    (List.mem_append_right _ (List.mem_flatMap.mpr ⟨e, equation, member⟩))

theorem slack_known {n : String} (slack : n ∈ form.slacks) : n ∈ form.symbols.names := by
  have member : ({ coefficient := 0, name := n } : Term α) ∈ form.objective := by
    rw [h.objective]
    exact List.mem_append_right _ (List.mem_map_of_mem slack)
  exact h.objective_known _ member

/-- The terms of an equation besides its slack have the names of its constraint. -/
theorem name_of_equation {e : StandardConstraint α} (equation : e ∈ form.constraints)
    {t : Term α} (member : t ∈ e.lhs) :
    (∃ c ∈ p.constraints, ∃ u ∈ c.lhs, u.name = t.name) ∨ e.slack = some t.name := by
  obtain ⟨c, constraint, states⟩ := h.constraint_of_equation equation
  obtain ⟨body, names, lhs⟩ := states.lhs
  rw [lhs, List.mem_append, List.mem_map] at member
  rcases member with member | ⟨n, slack, rfl⟩
  · have named : t.name ∈ c.lhs.map Term.name := names ▸ List.mem_map_of_mem member
    obtain ⟨u, listed, same⟩ := List.mem_map.mp named
    exact .inl ⟨c, constraint, u, listed, same⟩
  · exact .inr (Option.mem_toList.mp slack)

/-- The slack of an equation stands there once, with the coefficient one, and in no other
    equation. -/
theorem filter_slack {i j : Nat} {e d : StandardConstraint α} {n : String}
    (he : form.constraints[i]? = some e) (hd : form.constraints[j]? = some d)
    (slack : e.slack = some n) :
    d.lhs.filter (fun t => t.name = n) = if j = i then [slackTerm n] else [] := by
  have isSlack : n ∈ form.slacks := List.mem_filterMap.mpr ⟨e, List.mem_of_getElem? he, slack⟩
  obtain ⟨c, constraint, states⟩ := h.constraint_of_equation (List.mem_of_getElem? hd)
  obtain ⟨body, names, lhs⟩ := states.lhs
  have others : body.filter (fun t => t.name = n) = [] := by
    refine List.filter_eq_nil_iff.mpr fun t member => ?_
    obtain ⟨u, listed, same⟩ := List.mem_map.mp (names ▸ List.mem_map_of_mem member)
    have fresh := h.slack_ne isSlack
      (List.mem_append_right _ (List.mem_flatMap.mpr ⟨c, constraint, listed⟩))
    simpa [← same] using fresh
  rw [lhs, List.filter_append, others, List.nil_append]
  by_cases own : j = i
  · subst own
    cases Option.some.inj (he.symm.trans hd)
    simp [slack, slackTerm]
  · have other : d.slack ≠ some n := fun again => own (h.slack_position he hd slack again).symm
    cases own' : d.slack with
    | none => simp [own]
    | some m => simpa [own, slackTerm, own'] using other

theorem name_known_of_constraint {c : Constraint α} (constraint : c ∈ p.constraints) {t : Term α}
    (member : t ∈ c.lhs) : t.name ∈ form.symbols.names := by
  obtain ⟨e, equation, states⟩ := h.equation_of_constraint constraint
  obtain ⟨body, names, lhs⟩ := states.lhs
  have named : t.name ∈ body.map Term.name := names ▸ List.mem_map_of_mem member
  obtain ⟨u, listed, same⟩ := List.mem_map.mp named
  exact same ▸ h.equation_known equation u (lhs ▸ List.mem_append_left _ listed)

/-- Without constants on a left side the columns are the variables and the slacks. -/
theorem mem_names_iff (free : ∀ c ∈ p.constraints, ∀ t ∈ c.lhs, t.isConstant = false) {n : String} :
    n ∈ form.symbols.names ↔ n ∈ p.variableNames ∨ n ∈ form.slacks := by
  constructor
  · intro member
    rw [h.symbols, SymbolTable.mem_ofNames, List.map_append, List.mem_append] at member
    rcases member with objective | equations
    · rw [h.objective, List.map_append, List.mem_append] at objective
      rcases objective with signed | slack
      · obtain ⟨t, listed, notConstant, rfl⟩ :=
          name_mem_signedObjective.mp (List.mem_map.mp signed)
        refine .inl (p.mem_variableNames.mpr ⟨?_, t, List.mem_append_left _ listed, rfl⟩)
        simpa [Term.isConstant] using notConstant
      · simpa using Or.inr slack
    · obtain ⟨t, listed, rfl⟩ := List.mem_map.mp equations
      obtain ⟨e, equation, listed⟩ := List.mem_flatMap.mp listed
      rcases h.name_of_equation equation listed with ⟨c, constraint, u, inside, same⟩ | slack
      · refine .inl (p.mem_variableNames.mpr ⟨?_, u, ?_, same⟩)
        · simpa [Term.isConstant, same] using free c constraint u inside
        · exact List.mem_append_right _ (List.mem_flatMap.mpr ⟨c, constraint, inside⟩)
      · exact .inr (List.mem_filterMap.mpr ⟨e, equation, slack⟩)
  · rintro (variableName | slack)
    · obtain ⟨named, t, member, rfl⟩ := p.mem_variableNames.mp variableName
      rcases List.mem_append.mp member with objective | constraint
      · obtain ⟨u, listed, same⟩ := name_mem_signedObjective.mpr
          ⟨t, objective, by simpa [Term.isConstant] using named, rfl⟩
        exact same ▸ h.objective_known u (h.objective ▸ List.mem_append_left _ listed)
      · obtain ⟨c, constraint, listed⟩ := List.mem_flatMap.mp constraint
        exact h.name_known_of_constraint constraint listed
    · exact h.slack_known slack

theorem slack_not_variable {n : String} (slack : n ∈ form.slacks) : n ∉ p.variableNames := by
  intro member
  obtain ⟨_, t, listed, rfl⟩ := p.mem_variableNames.mp member
  exact h.slack_ne slack listed rfl

theorem variables_slacks_nodup : (p.variableNames ++ form.slacks).Nodup := by
  refine List.nodup_append.mpr ⟨p.variableNames_nodup, h.slacks_nodup, ?_⟩
  rintro n variableName _ slack rfl
  exact h.slack_not_variable slack variableName

theorem names_perm (free : ∀ c ∈ p.constraints, ∀ t ∈ c.lhs, t.isConstant = false) :
    form.symbols.names.Perm (p.variableNames ++ form.slacks) := by
  refine (List.perm_ext_iff_of_nodup form.symbols.names_nodup h.variables_slacks_nodup).mpr fun n => ?_
  rw [h.mem_names_iff free, List.mem_append]

end Represents

end StandardForm

end Simplex
