import Simplex.Expression
import Simplex.Text.Blank

/-!
Linear programs: relations, directions, constraints and the problem that they form.
-/
namespace Simplex

/-- The relation between the two sides of a constraint. -/
inductive Relation where
  | lt
  | le
  | eq
  | gt
  | ge
  deriving DecidableEq, Repr

namespace Relation

/-- The relation as it is written. -/
def symbol : Relation → String
  | lt => "<"
  | le => "<="
  | eq => "="
  | gt => ">"
  | ge => ">="

/-- The relation that holds after both sides are negated. -/
def flipped : Relation → Relation
  | lt => gt
  | le => ge
  | eq => eq
  | gt => lt
  | ge => le

end Relation

/-- Whether the objective is to be as small or as large as possible. -/
inductive Direction where
  | minimize
  | maximize
  deriving DecidableEq, Repr

/-- A text that names no direction. -/
structure UnknownDirection where
  text : String
  deriving DecidableEq, Repr

/-- The words for an unknown direction. -/
def UnknownDirection.message (e : UnknownDirection) : String :=
  "Unknown optimization direction '" ++ e.text ++ "', expected 'min' or 'max'"

namespace Direction

/-- Minimization, when nothing is said. -/
instance : Inhabited Direction := ⟨minimize⟩

/-- The direction as it is written. -/
def symbol : Direction → String
  | minimize => "min"
  | maximize => "max"

/-- Reads `min` or `max`, in any case of the letters and between blanks. -/
def read (text : String) : Except UnknownDirection Direction :=
  let word := (Text.trimBlanks text).toList.map Char.toLower
  if word = ['m', 'i', 'n'] then .ok minimize
  else if word = ['m', 'a', 'x'] then .ok maximize
  else .error ⟨text⟩

end Direction

/-- A constraint with its terms on the left and its constant on the right. -/
structure Constraint (α : Type) where
  lhs : Expression α
  relation : Relation
  rhs : α
  deriving DecidableEq, Repr

/-- A linear program: what to optimize, and the constraints in their order. -/
structure Problem (α : Type) where
  direction : Direction
  objective : Expression α
  objectiveConstant : α
  constraints : List (Constraint α)
  deriving DecidableEq, Repr

/-- All terms of a problem: the objective's, then those of the constraints in turn. -/
def Problem.terms {α : Type} (p : Problem α) : Expression α :=
  p.objective ++ p.constraints.flatMap Constraint.lhs

/-- The distinct variables of a problem, in order of first appearance. -/
def Problem.variableNames {α : Type} (p : Problem α) : List String := p.terms.variableNames

end Simplex
