import Simplex.Proofs.Faithfulness
import Simplex.Proofs.Growth

/-!
Slacks are fresh. Their letter is the first that starts no variable, and they are numbered along the
inequalities; so the columns are the variables and the slacks, without overlap. A slack stands in its
own equation only, and costs nothing.
-/
namespace Simplex

/-- A constraint that is not an equation. -/
def Constraint.isInequality {α : Type} (c : Constraint α) : Bool := decide (c.relation ≠ .eq)

namespace StandardForm

/-- The letters from one to another, both included. -/
def lettersFrom (first last : Char) : List Char :=
  (List.range' first.toNat (last.toNat + 1 - first.toNat)).map Char.ofNat

theorem slackLetters_eq : slackLetters = lettersFrom 'd' 'z' ++ lettersFrom 'D' 'Z' := by
  decide

variable {α : Type} {p : Problem α}

/-- The slack letter starts no variable, and every letter before it starts one. -/
theorem first_of_slackLetter? {letter : Char} (chosen : slackLetter? p = some letter) :
    ∃ before after, slackLetters = before ++ letter :: after ∧
      (∀ n ∈ p.variableNames, n.toList.head? ≠ some letter) ∧
      ∀ earlier ∈ before, ∃ n ∈ p.variableNames, n.toList.head? = some earlier := by
  obtain ⟨free, before, after, split, used⟩ := List.find?_eq_some_iff_append.mp chosen
  rw [Bool.not_eq_true', List.contains_eq_mem, decide_eq_false_iff_not] at free
  refine ⟨before, after, split, ?_, fun earlier member => ?_⟩
  · intro n member first
    exact free (mem_initials.mpr ⟨n, member, first⟩)
  · exact mem_initials.mp (by simpa using used earlier member)

variable [Scalar α]

/-- The slack of the equation at a place: an inequality has the next number after those of the
    inequalities before it. -/
theorem slack_equations (letter : Char) (used : Nat) (cs : List (Constraint α)) (i : Nat) :
    (equations letter used cs)[i]?.map StandardConstraint.slack = cs[i]?.map fun c =>
      if c.isInequality then
        some (slackName letter (used + (cs.take i).countP Constraint.isInequality + 1))
      else none := by
  induction cs generalizing used i with
  | nil => rfl
  | cons c rest ih =>
    cases relation : c.relation with
    | eq =>
      cases i with
      | zero => simp [equations, relation, Constraint.isInequality]
      | succ i => simpa [equations, relation, Constraint.isInequality] using ih used i
    | lt | le | gt | ge =>
      cases i with
      | zero => simp [equations, relation, Constraint.isInequality, withSlack]
      | succ i =>
        have later := ih (used + 1) i
        have shifted : used + 1 + (rest.take i).countP Constraint.isInequality =
            used + ((c :: rest).take (i + 1)).countP Constraint.isInequality := by
          rw [List.take_succ_cons, List.countP_cons]
          simp [Constraint.isInequality, relation]
          omega
        rw [shifted] at later
        simpa [equations, relation] using later

theorem length_slacks_equations (letter : Char) (used : Nat) (cs : List (Constraint α)) :
    ((equations letter used cs).filterMap StandardConstraint.slack).length =
      cs.countP Constraint.isInequality := by
  induction cs generalizing used with
  | nil => rfl
  | cons c rest ih =>
    cases relation : c.relation with
    | eq => simp [equations, relation, Constraint.isInequality, ih]
    | lt | le | gt | ge =>
      simp [equations, relation, Constraint.isInequality, withSlack, ih]

namespace Represents

variable {form : StandardForm α} (h : form.Represents p)
include h

theorem slackCount_eq : form.slackCount = p.constraints.countP Constraint.isInequality := by
  rw [h.slackCount, slacks, h.constraints, length_slacks_equations]

/-- Each constraint has its equation, which has a slack just if the constraint is an inequality. -/
theorem slack_of_constraint {i : Nat} {c : Constraint α} (found : p.constraints[i]? = some c) :
    ∃ e, form.constraints[i]? = some e ∧ e.slack =
      if c.isInequality then
        some (slackName form.slackLetter
          ((p.constraints.take i).countP Constraint.isInequality + 1))
      else none := by
  have placed := slack_equations form.slackLetter 0 p.constraints i
  rw [← h.constraints, found, Option.map_some, Option.map_eq_some_iff, zero_add] at placed
  exact placed

/-- The entries of the column of a slack: one in its own equation, zero in every other. -/
theorem entry_slack {i j : Nat} {e d : StandardConstraint α} {n : String} {s : Symbol}
    (own : form.constraints[i]? = some e) (slack : e.slack = some n)
    (column : form.symbols.symbol? n = some s) (other : form.constraints[j]? = some d) :
    (form.symbols.row d.lhs).getD s.index 0 = if j = i then 0 + 1 else 0 := by
  obtain ⟨member, rfl⟩ := form.symbols.symbol?_eq_some_iff.mp column
  rw [form.symbols.getD_row member, h.filter_slack own other slack]
  split <;> rfl

/-- A slack costs nothing: the objective has it once, at no cost. -/
theorem cost_slack {n : String} {s : Symbol} (slack : n ∈ form.slacks)
    (column : form.symbols.symbol? n = some s) : form.costs.getD s.index 0 = 0 + 0 := by
  obtain ⟨member, rfl⟩ := form.symbols.symbol?_eq_some_iff.mp column
  have absent : (signedObjective p).filter (fun t => t.name = form.symbols.name s) = [] := by
    refine List.filter_eq_nil_iff.mpr fun t listed => ?_
    obtain ⟨u, objective, _, same⟩ := name_mem_signedObjective.mp ⟨t, listed, rfl⟩
    have fresh := h.slack_ne slack (List.mem_append_left _ objective)
    simpa [← same] using fresh
  have once : form.slacks.filter (fun m => m = form.symbols.name s) = [form.symbols.name s] := by
    rw [List.filter_eq, List.count_eq_one_of_mem h.slacks_nodup slack, List.replicate_one]
  rw [costs, form.symbols.getD_row member, h.objective, List.filter_append, absent, List.nil_append,
    List.filter_map]
  simp only [Function.comp_def, once]
  rfl

end Represents

end StandardForm

/-- Slacks are fresh. Their letter is the first of `d` to `z` and `D` to `Z` that starts no variable;
    they are numbered along the inequalities, and none is a variable. Each has the entry one in its
    own equation, zero elsewhere, and no cost. Without constants on the left sides the columns are
    the variables and the slacks, so the basis variable of a row is one of the two and not the
    other, in every tableau. -/
theorem slacks_fresh {p : Problem Float} {form : StandardForm Float}
    (made : StandardForm.ofProblem p = .ok form) :
    (∃ before after,
      StandardForm.lettersFrom 'd' 'z' ++ StandardForm.lettersFrom 'D' 'Z' =
        before ++ form.slackLetter :: after ∧
      (∀ n ∈ p.variableNames, n.toList.head? ≠ some form.slackLetter) ∧
      ∀ earlier ∈ before, ∃ n ∈ p.variableNames, n.toList.head? = some earlier) ∧
    form.slacks = (List.range' 1 (p.constraints.countP Constraint.isInequality)).map
      (StandardForm.slackName form.slackLetter) ∧
    (∀ (i : Nat) c, p.constraints[i]? = some c → ∃ e, form.constraints[i]? = some e ∧ e.slack =
      if c.isInequality then
        some (StandardForm.slackName form.slackLetter
          ((p.constraints.take i).countP Constraint.isInequality + 1))
      else none) ∧
    (form.slacks.Nodup ∧ ∀ n ∈ form.slacks, n ∉ p.variableNames) ∧
    (∀ (i : Nat) e n, form.constraints[i]? = some e → e.slack = some n →
      ∃ s, form.symbols.symbol? n = some s ∧ form.costs.getD s.index 0 = 0 ∧
        ∀ (j : Nat) d, form.constraints[j]? = some d →
          (form.symbols.row d.lhs).getD s.index 0 = if j = i then 1 else 0) ∧
    ((∀ c ∈ p.constraints, ∀ t ∈ c.lhs, t.isConstant = false) →
      form.symbols.names.Perm (p.variableNames ++ form.slacks) ∧
      (p.variableNames ++ form.slacks).Nodup ∧
      ∀ tolerance calls, ∀ t ∈ ((Session.ofProblem p tolerance).after calls).tableaux,
        ∀ r ∈ t.rows,
          r.basisVariable ∈ p.variableNames ∧ r.basisVariable ∉ form.slacks ∨
            r.basisVariable ∈ form.slacks ∧ r.basisVariable ∉ p.variableNames) := by
  have represents := StandardForm.represents_of_ofProblem made
  refine ⟨?_, ?_, fun i c => represents.slack_of_constraint,
    ⟨represents.slacks_nodup, fun n => represents.slack_not_variable⟩,
    fun i e n own slack => ?_, fun free => ?_⟩
  · rw [← StandardForm.slackLetters_eq]
    exact StandardForm.first_of_slackLetter? represents.letter
  · rw [← represents.slackCount_eq]
    exact represents.slacks_eq
  · have isSlack : n ∈ form.slacks :=
      List.mem_filterMap.mpr ⟨e, List.mem_of_getElem? own, slack⟩
    obtain ⟨s, member, named⟩ := form.symbols.exists_symbol (represents.slack_known isSlack)
    have column := form.symbols.symbol?_eq_some_iff.mpr ⟨member, named⟩
    refine ⟨s, column, represents.cost_slack isSlack column, fun j d other => ?_⟩
    exact represents.entry_slack own slack column other
  · refine ⟨represents.names_perm free, represents.variables_slacks_nodup,
      fun tolerance calls t listed r row => ?_⟩
    have fits := (Session.Lawful.ofProblem.after calls).fits made listed
    have known : r.basisVariable ∈ form.symbols.names :=
      fits.basisVariable r row ▸ form.symbols.name_mem (fits.basis r row)
    rcases (represents.mem_names_iff free).mp known with variableName | slack
    · exact .inl ⟨variableName, fun slack => represents.slack_not_variable slack variableName⟩
    · exact .inr ⟨slack, represents.slack_not_variable slack⟩

/-- Minimize `d1 + 2e` under two bounds and an equation; the variables look like slacks. -/
def lookalikes : Problem Float where
  direction := .minimize
  objective := [{ coefficient := 1, name := "d1" }, { coefficient := 2, name := "e" }]
  objectiveConstant := 0
  constraints := [
    ⟨[{ coefficient := 1, name := "d1" }, { coefficient := 1, name := "f2" }], .ge, 2⟩,
    ⟨[{ coefficient := 3, name := "e" }, { coefficient := 1, name := "é1" }], .eq, 3⟩,
    ⟨[{ coefficient := 1, name := "f2" }], .lt, 4⟩]

theorem lookalikes_fresh : ∃ form, StandardForm.ofProblem lookalikes = .ok form ∧
    form.slackLetter = 'g' ∧ form.slacks = ["g1", "g2"] ∧
    form.symbols.names.Perm (lookalikes.variableNames ++ ["g1", "g2"]) ∧
    ∀ calls, ∀ t ∈ ((Session.ofProblem lookalikes 1e-9).after calls).tableaux, ∀ r ∈ t.rows,
      r.basisVariable ∈ lookalikes.variableNames ∧ r.basisVariable ∉ ["g1", "g2"] ∨
        r.basisVariable ∈ ["g1", "g2"] ∧ r.basisVariable ∉ lookalikes.variableNames := by
  obtain ⟨form, made, checked⟩ := exists_ok (StandardForm.ofProblem lookalikes)
    (fun form => form.slackLetter == 'g' && form.slacks == ["g1", "g2"]) (by decide +kernel)
  rw [Bool.and_eq_true, beq_iff_eq, beq_iff_eq] at checked
  obtain ⟨letter, slacks⟩ := checked
  obtain ⟨_, _, _, _, _, columns⟩ := slacks_fresh made
  obtain ⟨names, _, bases⟩ := columns (by decide)
  rw [slacks] at names bases
  exact ⟨form, made, letter, slacks, names, bases 1e-9⟩

end Simplex
