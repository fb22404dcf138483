import Simplex.Proofs.Invariance
import Simplex.Proofs.Overflow

/-!
Signs of whole problems. A problem may be recast: its direction switched with the objective negated,
inequalities mirrored and strict relations weakened. On doubles the run of a solve stays the same,
and the value of the objective keeps its magnitude, negated if the direction was switched
(`solve_recast`): rounding is symmetric in the sign.
-/
namespace Simplex

/-! ### Negated sums -/

namespace Double

open Float.Model (Format UnpackedFloat)
open Float.Model.UnpackedFloat (Sign pack unpack)

variable {x y : Float} {u v : UnpackedFloat}

theorem stored_neg (u : UnpackedFloat) : stored u.neg = (stored u).neg := by
  by_cases number : u = .notANumber
  · rw [number]
    exact stored_nan
  · obtain ⟨s, exponent, mantissa, own, negated⟩ := pack_eq_packComponents number
    unfold stored
    rw [negated, own, unpack_neg_packComponents]

theorem round_neg (s : Sign) (m : Nat) (e : Int) :
    UnpackedFloat.round .binary64 (-s) m e = (UnpackedFloat.round .binary64 s m e).neg := by
  unfold UnpackedFloat.round UnpackedFloat.roundWithAccuracy
  simp only
  split <;> rfl

/-- Rounding is symmetric, except that an exact zero has a sign of its own. -/
theorem normalize_neg (m e : Int) (s : Sign) : Alike (UnpackedFloat.normalize .binary64 (-m) e s)
    (UnpackedFloat.normalize .binary64 m e s).neg := by
  unfold UnpackedFloat.normalize
  rcases lt_trichotomy m 0 with below | zero | above
  · have mine : compare m 0 = .lt := compare_lt_iff_lt.mpr below
    have yours : compare (-m) 0 = .gt := compare_gt_iff_gt.mpr (by omega)
    simp only [mine, yours]
    exact .inl (round_neg .negative _ e)
  · subst zero
    exact .inr ⟨_, _, rfl, rfl⟩
  · have mine : compare m 0 = .gt := compare_gt_iff_gt.mpr above
    have yours : compare (-m) 0 = .lt := compare_lt_iff_lt.mpr (by omega)
    simp only [mine, yours, Int.neg_neg]
    exact .inl (round_neg .positive _ e)

theorem add_neg_alike (u v : UnpackedFloat) :
    Alike (.add .binary64 u.neg v.neg) (UnpackedFloat.add .binary64 u v).neg := by
  cases u with
  | notANumber => exact .inl rfl
  | infinity s =>
    cases v with
    | infinity t => cases s <;> cases t <;> exact .inl rfl
    | notANumber | zero | finite => exact .inl rfl
  | zero s =>
    cases v with
    | zero t => cases s <;> cases t <;> exact .inr ⟨_, _, rfl, rfl⟩
    | notANumber | infinity | finite => exact .inl rfl
  | finite s m e pos =>
    cases v with
    | finite t n f pos' =>
      simp only [UnpackedFloat.add, UnpackedFloat.neg, apply_neg, ← Int.neg_add]
      exact normalize_neg _ _ _
    | notANumber | infinity | zero => exact .inl rfl

/-- The sum of the negated numbers is the negated sum. -/
theorem alike_neg_add_neg (x y : Float) : Alike (shape (-x + -y)) (shape (-(x + y))) := by
  rw [shape_add, shape_neg, shape_neg, shape_neg, shape_add, ← stored_neg]
  rcases add_neg_alike (shape x) (shape y) with same | ⟨s, t, mine, yours⟩
  · rw [same]
    exact .inl rfl
  · rw [mine, yours, stored_zero, stored_zero]
    exact .inr ⟨s, t, rfl, rfl⟩

/-- Two doubles are the same number: they are equal, or both are undefined. -/
def SameNumber (x y : Float) : Prop := (x == y) = true ∨ (x.isNaN = true ∧ y.isNaN = true)

theorem sameNumber_iff : SameNumber x y ↔ Alike (shape x) (shape y) := by
  rw [SameNumber, beq_iff, isNaN_iff, isNaN_iff]
  constructor
  · rintro (⟨_, alike⟩ | ⟨mine, yours⟩)
    · exact alike
    · exact .inl (mine.trans yours.symm)
  · intro alike
    by_cases number : shape x = .notANumber
    · rcases alike with same | ⟨s, _, zero, _⟩
      · exact .inr ⟨number, same.symm.trans number⟩
      · rw [number] at zero
        cases zero
    · exact .inl ⟨number, alike⟩

end Double

/-! ### Recast problems -/

/-- The other direction. -/
def Direction.switched : Direction → Direction
  | minimize => maximize
  | maximize => minimize

/-- The relation that does not exclude equality. -/
def Relation.weakened : Relation → Relation
  | lt | le => le
  | eq => eq
  | gt | ge => ge

/-- The constraint with both sides negated. -/
def Constraint.mirrored {α : Type} [Scalar α] (c : Constraint α) : Constraint α :=
  ⟨c.lhs.map Term.negated, c.relation.flipped, -c.rhs⟩

/-- The constraint with its relation weakened. -/
def Constraint.weakened {α : Type} (c : Constraint α) : Constraint α :=
  { c with relation := c.relation.weakened }

/-- What becomes of a constraint when an inequality is mirrored and a strict relation is weakened,
    any number of times. -/
inductive Constraint.Restated {α : Type} [Scalar α] (c : Constraint α) : Constraint α → Prop
  | same : Restated c c
  | mirrored {d : Constraint α} (h : Restated c d) (inequality : d.relation ≠ .eq) :
      Restated c d.mirrored
  | weakened {d : Constraint α} (h : Restated c d) : Restated c d.weakened

/-- The objective and the direction of a problem when both are turned, or left as they are. -/
structure Problem.Recast {α : Type} [Scalar α] (turned : Bool) (p q : Problem α) : Prop where
  direction : q.direction = if turned then p.direction.switched else p.direction
  objective : q.objective = if turned then p.objective.map Term.negated else p.objective
  objectiveConstant :
    q.objectiveConstant = if turned then -p.objectiveConstant else p.objectiveConstant
  constraints : List.Forall₂ Constraint.Restated p.constraints q.constraints

namespace Expression

variable (e : Expression Float)

theorem alike_negated_twice : e.Alike ((e.map Term.negated).map Term.negated) where
  names n := by simp [Term.negated]
  row t := by
    have term : ∀ (row : List Float) (u : Term Float),
        t.scatter row u.negated.negated = t.scatter row u := by
      intro row u
      simp only [SymbolTable.scatter, Term.negated, Binary64.neg_neg]
    simp only [SymbolTable.row, List.foldl_map, term]

theorem variableTerms_negated :
    variableTerms (e.map Term.negated) = e.variableTerms.map Term.negated := by
  rw [variableTerms, List.filter_map]
  rfl

theorem evaluate_negated_twice (rest : Expression Float) (a : Assignment Float) :
    Solution.evaluate ((e.map Term.negated).map Term.negated ++ rest) a =
      Solution.evaluate (e ++ rest) a := by
  simp only [Solution.evaluate, List.map_append, List.map_map]
  congr 2
  apply List.map_congr_left
  intro u _
  show - -u.coefficient * _ = _
  rw [Binary64.neg_neg]
  rfl

end Expression

namespace Constraint

variable {c d : Constraint Float}

theorem mirrored_alike (inequality : c.relation ≠ .eq) : c.Alike c.mirrored := by
  have sides : c.upperBound.1.Alike c.mirrored.upperBound.1 ∧
      c.upperBound.2 = c.mirrored.upperBound.2 := by
    unfold upperBound mirrored
    cases relation : c.relation with
    | lt | le => exact ⟨Expression.alike_negated_twice _, (Binary64.neg_neg _).symm⟩
    | gt | ge => exact ⟨.refl _, rfl⟩
    | eq => exact absurd relation inequality
  refine ⟨?_, sides.1, sides.2, fun equation => absurd equation inequality⟩
  unfold mirrored
  cases c.relation <;> simp [Relation.flipped]

theorem weakened_alike (c : Constraint Float) : c.Alike c.weakened := by
  have sides : c.weakened.upperBound = c.upperBound := by
    unfold upperBound weakened
    cases c.relation <;> rfl
  refine ⟨?_, by rw [sides]; exact .refl _, by rw [sides], fun _ => rfl⟩
  unfold weakened
  cases c.relation <;> simp [Relation.weakened]

theorem Restated.alike (h : c.Restated d) : c.Alike d := by
  induction h with
  | same => exact .refl c
  | mirrored _ inequality ih => exact ih.trans (mirrored_alike inequality)
  | @weakened d _ ih => exact ih.trans (weakened_alike d)

end Constraint

namespace Problem.Recast

variable {turned : Bool} {p q : Problem Float}

theorem alike (h : p.Recast turned q) : p.Alike q where
  names n := by
    rw [h.objective]
    cases turned <;> simp [Term.negated]
  objective := by
    unfold StandardForm.signedObjective
    rw [h.direction, h.objective]
    cases turned with
    | false => exact .refl _
    | true =>
      simp only [if_true, Expression.variableTerms_negated]
      cases p.direction with
      | maximize => exact Expression.alike_negated_twice _
      | minimize => exact .refl _
  constraints := h.constraints.imp fun _ _ restated => restated.alike

/-- A tableau has the same value for both problems, negated if the direction was switched. -/
theorem objectiveValue (h : p.Recast turned q) {f g : StandardForm Float} (mine : f.Represents p)
    (yours : g.Represents q) (slacks : f.slacks = g.slacks) (t : Tableau Float) :
    Double.SameNumber (Solution.ofTableau g t).objectiveValue
      (if turned then -(Solution.ofTableau f t).objectiveValue
        else (Solution.ofTableau f t).objectiveValue) := by
  rw [Double.sameNumber_iff]
  unfold Solution.ofTableau
  simp only [mine.direction, yours.direction, mine.objectiveConstant, yours.objectiveConstant,
    mine.objective, yours.objective, slacks, h.direction, h.objectiveConstant]
  unfold StandardForm.signedObjective
  rw [h.direction, h.objective]
  cases turned with
  | false => exact .inl rfl
  | true =>
    simp only [if_true, Expression.variableTerms_negated]
    cases p.direction with
    | maximize =>
      simp only [Direction.switched, Expression.evaluate_negated_twice]
      exact Double.alike_neg_add_neg _ _
    | minimize =>
      have value := Double.alike_neg_add_neg (-Solution.evaluate
        (p.objective.variableTerms.map Term.negated ++
          g.slacks.map fun slack => { coefficient := 0, name := slack })
        (Assignment.ofList (t.rows.map fun row => (row.basisVariable, row.rhs))))
        p.objectiveConstant
      rw [Binary64.neg_neg] at value
      exact value

end Problem.Recast

/-- A solve and the solve of the recast problem fail in the same way, or they end in the same way
    after the same tableaux, with the same values of the variables; the value of the objective is
    the same number, negated if the direction was switched. -/
theorem solve_recast {turned : Bool} {p q : Problem Float} (recast : p.Recast turned q)
    (solver : Solver Float) :
    (∃ e, solver.solve p = .error e ∧ solver.solve q = .error e) ∨
      ∃ r s, solver.solve p = .ok r ∧ solver.solve q = .ok s ∧
        r.termination = s.termination ∧ r.tableaux = s.tableaux ∧
        ((r.solution = none ∧ s.solution = none) ∨
          ∃ x y, r.solution = some x ∧ s.solution = some y ∧
            x.iteration = y.iteration ∧ x.assignment = y.assignment ∧
            Double.SameNumber y.objectiveValue
              (if turned then -x.objectiveValue else x.objectiveValue)) := by
  rcases solver.solve_of_alike recast.alike with
    failed | ⟨r, s, mine, yours, known, twin, twins⟩
  · exact .inl failed
  · refine .inr ⟨r, s, mine, yours, twins.termination, twins.tableaux, ?_⟩
    rcases twins.solution with neither | ⟨last, found, other⟩
    · exact .inl neither
    · have value := recast.objectiveValue (StandardForm.represents_of_ofProblem known)
        (StandardForm.represents_of_ofProblem twin) twins.forms.slacks last
      exact .inr ⟨_, _, found, other, rfl, rfl, value⟩

/-- Maximize `0.1x + 0.3y + 0.7` where `x + y` is below four and `x - 2y` is at least `-3`. -/
def hillside : Problem Float where
  direction := .maximize
  objective := [{ coefficient := 0.1, name := "x" }, { coefficient := 0.3, name := "y" }]
  objectiveConstant := 0.7
  constraints := [
    ⟨[{ coefficient := 1, name := "x" }, { coefficient := 1, name := "y" }], .lt, 4⟩,
    ⟨[{ coefficient := 1, name := "x" }, { coefficient := -2, name := "y" }], .ge, -3⟩]

/-- The same problem upside down, the first constraint weakened too. -/
def hillsideTurned : Problem Float where
  direction := .minimize
  objective := [{ coefficient := -0.1, name := "x" }, { coefficient := -0.3, name := "y" }]
  objectiveConstant := -0.7
  constraints := [
    ⟨[{ coefficient := -1, name := "x" }, { coefficient := -1, name := "y" }], .ge, -4⟩,
    ⟨[{ coefficient := -1, name := "x" }, { coefficient := 2, name := "y" }], .le, 3⟩]

/-- Two pivots lead both problems to the same optimum, with opposite values of the objective. -/
theorem hillsideTurned_recast : hillside.Recast true hillsideTurned ∧
    ∃ r s, Solver.standard.solve hillside = .ok r ∧ Solver.standard.solve hillsideTurned = .ok s ∧
      r.tableaux = s.tableaux ∧ s.tableaux.length = 3 ∧
      ∃ x y, r.solution = some x ∧ s.solution = some y ∧ x.assignment = y.assignment ∧
        Double.SameNumber y.objectiveValue (-x.objectiveValue) := by
  have recast : hillside.Recast true hillsideTurned := by
    refine ⟨rfl, by decide +kernel, rfl, .cons ?_ (.cons ?_ .nil)⟩
    · have mirrored : hillside.constraints[0].Restated hillside.constraints[0].mirrored :=
        .mirrored .same (by decide)
      exact mirrored.weakened
    · exact .mirrored .same (by decide)
  obtain ⟨s, solved, checked⟩ := exists_ok (Solver.standard.solve hillsideTurned)
    (fun s => s.tableaux.length == 3 && s.solution.isSome) (by decide +kernel)
  simp only [Bool.and_eq_true, beq_iff_eq] at checked
  rcases solve_recast recast Solver.standard with
    ⟨e, _, failed⟩ | ⟨r, t, mine, yours, _, tableaux, solutions⟩
  · rw [solved] at failed
    cases failed
  · obtain rfl : s = t := Except.ok.inj (solved.symm.trans yours)
    rcases solutions with ⟨_, none⟩ | ⟨x, y, found, other, _, assignment, value⟩
    · rw [none] at checked
      cases checked.2
    · exact ⟨recast, r, s, mine, yours, tableaux, checked.1, x, y, found, other, assignment, value⟩

end Simplex
