import Simplex.Proofs.Double
import Simplex.Proofs.Drafts
import Simplex.Proofs.Meaning

/-!
What statements mean on the rationals. Every double that is finite is a rational, so the statement
that was read has a meaning: its objective has a value at each point, and each comparison holds there
or not. Normalizing without rounding moves terms across the relation, merges them and sums the
constants; it changes neither the value of the objective nor the points at which a comparison holds.
-/
namespace Simplex

/-! ### Doubles as rationals -/

namespace Double

/-- The rational that a finite double is. -/
def value? (x : Float) : Option Rat :=
  match shape x with
  | .zero _ => some 0
  | .finite s mantissa exponent _ => some ((s.apply mantissa : Int) * 2 ^ exponent)
  | .infinity _ | .notANumber => none

theorem isSome_value? (x : Float) : (value? x).isSome = x.isFinite := by
  rw [isFinite_eq, value?]
  cases shape x <;> rfl

end Double

/-- The expression has the terms of the other, each coefficient exactly as the double is. -/
def Expression.Represents (q : Expression Rat) (e : Expression Float) : Prop :=
  List.Forall₂ (fun u t => Double.value? t.coefficient = some u.coefficient ∧ u.name = t.name) q e

/-- The comparison has the sides of the other, exactly, and its relation. -/
structure Comparison.Represents (q : Comparison Rat) (c : Comparison Float) : Prop where
  left : q.left.Represents c.left
  relation : q.relation = c.relation
  right : q.right.Represents c.right

/-- The statement is the other one, with every number exactly as the double is. -/
structure Statement.Represents (q : Statement Rat) (s : Statement Float) : Prop where
  direction : q.direction = s.direction
  objective : q.objective.Represents s.objective
  comparisons : List.Forall₂ Comparison.Represents q.comparisons s.comparisons

/-- All coefficients are finite. -/
def Expression.IsFinite (e : Expression Float) : Prop := ∀ t ∈ e, t.coefficient.isFinite = true

instance (e : Expression Float) : Decidable e.IsFinite :=
  inferInstanceAs (Decidable (∀ t ∈ e, t.coefficient.isFinite = true))

/-- All numbers of a statement are finite. -/
structure Statement.IsFinite (s : Statement Float) : Prop where
  objective : s.objective.IsFinite
  comparisons : ∀ c ∈ s.comparisons, c.left.IsFinite ∧ c.right.IsFinite

instance (s : Statement Float) : Decidable s.IsFinite :=
  decidable_of_iff
    (s.objective.IsFinite ∧ ∀ c ∈ s.comparisons, c.left.IsFinite ∧ c.right.IsFinite)
    ⟨fun h => ⟨h.1, h.2⟩, fun h => ⟨h.objective, h.comparisons⟩⟩

theorem Expression.exists_represents {e : Expression Float} (finite : e.IsFinite) :
    ∃ q : Expression Rat, q.Represents e := by
  induction e with
  | nil => exact ⟨[], .nil⟩
  | cons t later ih =>
    obtain ⟨own, others⟩ := List.forall_mem_cons.mp finite
    rw [← Double.isSome_value?, Option.isSome_iff_exists] at own
    obtain ⟨x, value⟩ := own
    obtain ⟨q, represents⟩ := ih others
    exact ⟨{ coefficient := x, name := t.name } :: q, .cons ⟨value, rfl⟩ represents⟩

theorem Statement.exists_represents {s : Statement Float} (finite : s.IsFinite) :
    ∃ q : Statement Rat, q.Represents s := by
  obtain ⟨objective, own⟩ := Expression.exists_represents finite.objective
  have all : ∃ qs : List (Comparison Rat), List.Forall₂ Comparison.Represents qs s.comparisons := by
    have each := finite.comparisons
    generalize s.comparisons = cs at each
    induction cs with
    | nil => exact ⟨[], .nil⟩
    | cons c later ih =>
      obtain ⟨own, others⟩ := List.forall_mem_cons.mp each
      obtain ⟨left, hl⟩ := Expression.exists_represents own.1
      obtain ⟨right, hr⟩ := Expression.exists_represents own.2
      obtain ⟨qs, represents⟩ := ih others
      exact ⟨⟨left, c.relation, right⟩ :: qs, .cons ⟨hl, rfl, hr⟩ represents⟩
  obtain ⟨comparisons, others⟩ := all
  exact ⟨⟨s.direction, objective, comparisons⟩, rfl, own, others⟩

/-! ### Values -/

/-- The value of an expression at a point, its constants included. -/
def Expression.evaluate (e : Expression Rat) (v : String → Rat) : Rat :=
  (e.map fun t => if t.isConstant then t.coefficient else t.coefficient * v t.name).sum

/-- A relation between two numbers. -/
def Relation.Holds : Relation → Rat → Rat → Prop
  | .lt, a, b => a < b
  | .le, a, b => a ≤ b
  | .eq, a, b => a = b
  | .gt, a, b => b < a
  | .ge, a, b => b ≤ a

/-- The comparison holds at a point. -/
def Comparison.Holds (c : Comparison Rat) (v : String → Rat) : Prop :=
  c.relation.Holds (c.left.evaluate v) (c.right.evaluate v)

/-- The constraint holds at a point. -/
def Constraint.Holds (c : Constraint Rat) (v : String → Rat) : Prop :=
  c.relation.Holds (c.lhs.value v) c.rhs

variable {v : String → Rat}

theorem Expression.evaluate_cons (t : Term Rat) (e : Expression Rat) :
    evaluate (t :: e) v =
      (if t.isConstant then t.coefficient else t.coefficient * v t.name) + e.evaluate v := by
  simp [evaluate]

/-- The value of an expression is that of its variables and its constant. -/
theorem Expression.evaluate_eq (e : Expression Rat) :
    e.evaluate v = e.variableTerms.value v + e.constant := by
  rw [constant, Scalar.accumulate_eq]
  induction e with
  | nil => simp [evaluate, variableTerms]
  | cons t rest ih =>
    rw [evaluate_cons, ih]
    cases kind : t.isConstant with
    | true =>
      have remaining : variableTerms (t :: rest) = variableTerms rest := by
        simp [variableTerms, kind]
      rw [remaining, if_pos rfl, List.filter_cons_of_pos kind, List.map_cons, List.sum_cons]
      ring
    | false =>
      have remaining : variableTerms (t :: rest) = t :: variableTerms rest := by
        simp [variableTerms, kind]
      rw [remaining, if_neg Bool.false_ne_true, value_cons,
        List.filter_cons_of_neg (by simp [kind])]
      ring

/-- Terms on both sides cancel. -/
theorem Relation.holds_move (relation : Relation) (a b x y : Rat) :
    relation.Holds (a + x) (b + y) ↔ relation.Holds (a - b) (y - x) := by
  cases relation <;> constructor <;> intro holds <;> simp only [Holds] at holds ⊢ <;> linarith

/-- Normalizing a comparison does not change where it holds. -/
theorem Comparison.holds_normalize (c : Comparison Rat) :
    c.normalize.Holds v ↔ c.Holds v := by
  have lhs : c.normalize.lhs.value v =
      c.left.variableTerms.value v - c.right.variableTerms.value v := by
    rw [normalize, Expression.value_merge, Expression.value_append, Expression.value_negated]
    ring
  rw [Comparison.Holds, Expression.evaluate_eq, Expression.evaluate_eq, Relation.holds_move,
    ← lhs]
  exact Iff.rfl

/-- Normalizing an objective does not change its value. -/
theorem Statement.objectiveAt_normalize (s : Statement Rat) :
    s.normalize.objectiveAt v = s.objective.evaluate v := by
  rw [Expression.evaluate_eq]
  show s.objective.variableTerms.merge.value v + s.objective.constant = _
  rw [Expression.value_merge]

/-! ### From texts to problems -/

/-- The texts of a draft state the statement: the direction is read, the objective is read from its
    text without blanks, and each constraint is two expressions with a relation between them. -/
structure Draft.States (d : Draft) (s : Statement Float) : Prop where
  direction : (d.direction = none ∧ s.direction = default) ∨
    ∃ text ∈ d.direction, Direction.read text = .ok s.direction
  objective : Expression.read (Text.withoutBlanks d.objective) = .ok s.objective
  comparisons : List.Forall₂
    (fun text c => ∃ left right, Comparison.Sides (Text.withoutBlanks text).toList c left right)
    d.constraints s.comparisons

theorem Draft.states_of_read {d : Draft} {s : Statement Float} (read : d.read = .ok s) :
    d.States s := by
  obtain ⟨directed, objective, _, each⟩ := Draft.read_eq_ok_iff.mp read
  refine ⟨directed.imp_right ?_, objective, each.imp fun text c read => ?_⟩
  · rintro ⟨text, given, names⟩
    exact ⟨text, given, Direction.read_eq_ok_iff.mpr names⟩
  · exact Comparison.read_eq_ok_iff.mp (mapError_eq_ok_iff.mp read)

/-- A draft that is built states a statement, whose normal form the problem is. Without rounding, the
    normal form has the same objective at every point, and each constraint of it has the relation of
    the text and holds just where the two sides of the text stand in it. -/
theorem build_preserves_meaning {d : Draft} {p : Problem Float} (built : d.build = .ok p) :
    ∃ s : Statement Float, d.read = .ok s ∧ d.States s ∧ s.normalize = p ∧
      (s.IsFinite → ∃ q : Statement Rat, q.Represents s) ∧
      ∀ q : Statement Rat, q.Represents s → ∀ v : String → Rat,
        q.normalize.objectiveAt v = q.objective.evaluate v ∧
        List.Forall₂ (fun c n => n.relation = c.relation ∧ (n.Holds v ↔ c.Holds v))
          q.comparisons q.normalize.constraints := by
  obtain ⟨s, read, normal⟩ := Draft.exists_of_build built
  refine ⟨s, read, Draft.states_of_read read, normal, Statement.exists_represents, fun q _ v => ?_⟩
  refine ⟨q.objectiveAt_normalize, ?_⟩
  show List.Forall₂ _ q.comparisons (q.comparisons.map Comparison.normalize)
  rw [List.forall₂_map_right_iff, List.forall₂_same]
  exact fun c _ => ⟨rfl, c.holds_normalize⟩

/-- Variables and constants on both sides, some more than once. -/
def bothSides : Draft where
  objective := "3 - 2x + x + 1"
  constraints := ["x - 2 <= 2x + y + x", "5 > y"]
  direction := some "max"

theorem bothSides_preserves_meaning : ∃ s : Statement Float, bothSides.read = .ok s ∧ s.IsFinite ∧
    ∃ q : Statement Rat, q.Represents s ∧ ∀ v : String → Rat,
      q.normalize.objectiveAt v = q.objective.evaluate v ∧
      List.Forall₂ (fun c n => n.relation = c.relation ∧ (n.Holds v ↔ c.Holds v))
        q.comparisons q.normalize.constraints := by
  have built : bothSides.build = .ok ⟨.maximize, [{ coefficient := -1, name := "x" }], 4,
      [⟨[{ coefficient := -2, name := "x" }, { coefficient := -1, name := "y" }], .le, 2⟩,
        ⟨[{ coefficient := -1, name := "y" }], .gt, -5⟩]⟩ := by decide +kernel
  have first : bothSides.read = .ok ⟨.maximize,
      [{ coefficient := 3, name := "" }, { coefficient := -2, name := "x" },
        { coefficient := 1, name := "x" }, { coefficient := 1, name := "" }],
      [⟨[{ coefficient := 1, name := "x" }, { coefficient := -2, name := "" }], .le,
          [{ coefficient := 2, name := "x" }, { coefficient := 1, name := "y" },
            { coefficient := 1, name := "x" }]⟩,
        ⟨[{ coefficient := 5, name := "" }], .gt, [{ coefficient := 1, name := "y" }]⟩]⟩ := by
    decide +kernel
  obtain ⟨s, read, _, _, represented, meaning⟩ := build_preserves_meaning built
  cases first.symm.trans read
  obtain ⟨q, represents⟩ := represented (by decide +kernel)
  exact ⟨_, first, by decide +kernel, q, represents, meaning q represents⟩

end Simplex
