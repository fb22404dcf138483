import Simplex.Assignment
import Simplex.Tableau.Basic

/-!
The solution that a tableau stands for: each basis variable has its row's right-hand side, every
other variable is zero.
-/
namespace Simplex

/-- Values of the basis variables, slacks included, and of the objective in the problem's own
    direction. -/
structure Solution (α : Type) where
  iteration : Nat
  assignment : Assignment α
  objectiveValue : α
  deriving DecidableEq, Repr

namespace Solution

variable {α : Type} [Scalar α]

/-- The value of an expression's variable terms at an assignment. -/
def evaluate (e : Expression α) (a : Assignment α) : α :=
  Scalar.sum (e.map fun t => t.coefficient * a.value t.name)

/-- Reads the solution off a tableau of a standard form. -/
def ofTableau (form : StandardForm α) (t : Tableau α) : Solution α :=
  let assignment := Assignment.ofList (t.rows.map fun row => (row.basisVariable, row.rhs))
  let raw := evaluate form.objective assignment
  {
    iteration := t.iteration
    assignment := assignment
    objectiveValue :=
      (match form.direction with
        | .maximize => raw
        | .minimize => -raw) + form.objectiveConstant }

/-- The value of a variable, zero outside the basis. -/
def value (s : Solution α) (name : String) : α := s.assignment.value name

/-- The variable is in the basis. -/
def isBasic (s : Solution α) (name : String) : Bool := s.assignment.contains name

end Solution

end Simplex
