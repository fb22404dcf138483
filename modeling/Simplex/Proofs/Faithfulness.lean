import Simplex.Proofs.Meaning
import Simplex.Proofs.Runs

/-!
The standard form means what its problem means. A point is allowed just if its extension by slacks
satisfies the equations with no negative slack, the objectives agree up to the sign of the direction,
and the dense rows have the values of their terms. A problem has no standard form just if it lacks a
constraint, a variable in its objective or a letter for the slacks.
-/
namespace Simplex

namespace StandardForm

/-! ### Problems without a standard form -/

/-- The letters from `d` to `z` and from `D` to `Z`. -/
def IsSlackLetter (c : Char) : Prop := ('d' ≤ c ∧ c ≤ 'z') ∨ ('D' ≤ c ∧ c ≤ 'Z')

theorem mem_slackLetters {c : Char} : c ∈ slackLetters ↔ IsSlackLetter c := by
  have codes : slackLetters.map Char.toNat = List.range' 100 23 ++ List.range' 68 23 := by decide
  have injective : Function.Injective Char.toNat := fun _ _ => Char.toNat_inj.mp
  rw [← List.mem_map_of_injective injective, codes, List.mem_append, List.mem_range'_1,
    List.mem_range'_1]
  show _ ↔ (100 ≤ c.toNat ∧ c.toNat ≤ 122) ∨ (68 ≤ c.toNat ∧ c.toNat ≤ 90)
  omega

variable {α : Type} {p : Problem α}

theorem mem_initials {letter : Char} :
    letter ∈ p.terms.filterMap (fun t => t.name.toList.head?) ↔
      ∃ n ∈ p.variableNames, n.toList.head? = some letter := by
  simp only [List.mem_filterMap, p.mem_variableNames]
  constructor
  · rintro ⟨t, member, first⟩
    refine ⟨t.name, ⟨?_, t, member, rfl⟩, first⟩
    rintro empty
    rw [empty] at first
    cases first
  · rintro ⟨_, ⟨_, t, member, rfl⟩, first⟩
    exact ⟨t, member, first⟩

theorem slackLetter?_eq_none_iff : slackLetter? p = none ↔
    ∀ letter, IsSlackLetter letter → ∃ n ∈ p.variableNames, n.toList.head? = some letter := by
  unfold slackLetter?
  simp only [List.find?_eq_none, mem_slackLetters, Bool.not_eq_true', Bool.not_eq_false,
    List.contains_iff_mem, mem_initials]

theorem ofProblem_error_iff [Scalar α] : (∃ e, ofProblem p = .error e) ↔
    p.constraints = [] ∨ (∀ t ∈ p.objective, t.isConstant = true) ∨ slackLetter? p = none := by
  unfold ofProblem
  rw [← List.isEmpty_iff, ← List.all_eq_true]
  cases p.constraints.isEmpty with
  | true => simp
  | false =>
    cases p.objective.all Term.isConstant with
    | true => simp
    | false => cases slackLetter? p <;> simp

/-! ### Values -/

/-- The value of a dense row when every name has a value. -/
def denseValue (form : StandardForm Rat) (row : List Rat) (w : String → Rat) : Rat :=
  (form.symbols.symbols.map fun s => row.getD s.index 0 * w (form.symbols.name s)).sum

namespace Represents

variable {p : Problem Rat} {form : StandardForm Rat} (h : form.Represents p)
include h

/-- A point is allowed just if its extension satisfies the equations with no negative slack. -/
theorem allows_iff_extend (v : String → Rat) :
    (∀ c ∈ p.constraints, c.Allows v) ↔
      form.Satisfied (form.extend v) ∧ ∀ n ∈ form.slacks, 0 ≤ form.extend v n := by
  constructor
  · intro allows
    have satisfied := h.satisfied_extend_of_allows allows
    refine ⟨satisfied, fun n member => ?_⟩
    obtain ⟨e, equation, slack⟩ := List.mem_filterMap.mp member
    obtain ⟨c, constraint, states⟩ := h.constraint_of_equation equation
    have allowed := (h.allows_extend constraint v).mpr (allows c constraint)
    exact (states.allows_iff (satisfied e equation)).mp allowed n slack
  · rintro ⟨satisfied, nonneg⟩ c constraint
    obtain ⟨e, equation, states⟩ := h.equation_of_constraint constraint
    refine (h.allows_extend constraint v).mp ?_
    refine (states.allows_iff (satisfied e equation)).mpr fun n slack => ?_
    exact nonneg n (List.mem_filterMap.mpr ⟨e, equation, slack⟩)

theorem objective_extend (pure : p.PureObjective) (v : String → Rat) :
    form.objective.value (form.extend v) =
      match p.direction with
      | .maximize => p.objective.value v
      | .minimize => -p.objective.value v := by
  have same : p.objective.value (form.extend v) = p.objective.value v :=
    Expression.value_congr fun _ member => h.extend_name (List.mem_append_left _ member) v
  rw [← same]
  exact h.objective_value pure _

end Represents

end StandardForm

/-- The standard form is faithful: extended by its slacks, a point is allowed just if it satisfies
    the equations with no negative slack, and its objective is the problem's up to the sign of the
    direction. It is missing only without a constraint, a variable to optimize or a slack letter. -/
theorem standardForm_faithful (p : Problem Rat) :
    ((∃ e, StandardForm.ofProblem p = .error e) ↔
      p.constraints = [] ∨ (∀ t ∈ p.objective, t.isConstant = true) ∨
        ∀ letter, StandardForm.IsSlackLetter letter →
          ∃ n ∈ p.variableNames, n.toList.head? = some letter) ∧
    ∀ form, StandardForm.ofProblem p = .ok form → p.PureObjective → p.BoundsOnly →
      (∀ n, n ∈ form.symbols.names ↔ n ∈ p.variableNames ∨ n ∈ form.slacks) ∧
      (form.slacks.Nodup ∧ ∀ n ∈ form.slacks, n ∉ p.variableNames) ∧
      (∀ v,
        (∀ n ∈ p.variableNames, form.extend v n = v n) ∧
        (∀ e ∈ form.constraints, ∀ n, e.slack = some n → form.extend v n = e.slackValue v) ∧
        ((∀ c ∈ p.constraints, c.Allows v) ↔
          form.Satisfied (form.extend v) ∧ ∀ n ∈ form.slacks, 0 ≤ form.extend v n) ∧
        form.objective.value (form.extend v) =
          match p.direction with
          | .maximize => p.objective.value v
          | .minimize => -p.objective.value v) ∧
      form.objectiveConstant = p.objectiveConstant ∧
      ∀ w, form.denseValue form.costs w = form.objective.value w ∧
        ∀ e ∈ form.constraints, form.denseValue (form.symbols.row e.lhs) w = e.lhs.value w := by
  refine ⟨?_, fun form made pure bounds => ?_⟩
  · rw [StandardForm.ofProblem_error_iff, StandardForm.slackLetter?_eq_none_iff]
  · have represents := StandardForm.represents_of_ofProblem made
    refine ⟨fun n => represents.mem_names_iff bounds,
      ⟨represents.slacks_nodup, fun n => represents.slack_not_variable⟩, fun v => ?_,
      represents.objectiveConstant, fun w => ⟨?_, fun e equation => ?_⟩⟩
    · exact ⟨fun n member => represents.extend_variable member v,
        fun e equation n slack => represents.extend_eq_slackValue equation slack v,
        represents.allows_iff_extend v, represents.objective_extend pure v⟩
    · exact form.symbols.row_value w represents.objective_known
    · exact form.symbols.row_value w (represents.equation_known equation)

/-- Minimize `x` less twice `d` under one constraint of each kind; `x` occurs twice in one of them. -/
def assorted : Problem Rat where
  direction := .minimize
  objective := [{ coefficient := 1, name := "x" }, { coefficient := -2, name := "d" }]
  objectiveConstant := 3
  constraints := [⟨[{ coefficient := 1, name := "x" }, { coefficient := 1, name := "d" }], .lt, 4⟩,
    ⟨[{ coefficient := 1, name := "x" }, { coefficient := -1, name := "d" }], .ge, -1⟩,
    ⟨[{ coefficient := 1, name := "x" }, { coefficient := 1, name := "x" }], .eq, 2⟩]

theorem assorted_faithful : ∃ form, StandardForm.ofProblem assorted = .ok form ∧
    form.slacks = ["e1", "e2"] ∧ ∀ v, (∀ c ∈ assorted.constraints, c.Allows v) ↔
      form.Satisfied (form.extend v) ∧ ∀ n ∈ form.slacks, 0 ≤ form.extend v n := by
  obtain ⟨form, made, checked⟩ := exists_ok (StandardForm.ofProblem assorted)
    (fun form => form.slacks == ["e1", "e2"]) (by decide +kernel)
  obtain ⟨_, _, points, _⟩ := (standardForm_faithful assorted).2 form made (by decide) (by decide)
  exact ⟨form, made, beq_iff_eq.mp checked, fun v => (points v).2.2.1⟩

end Simplex
