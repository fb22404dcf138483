import Simplex.Decimal.Printer

/-!
Why the method stops, and what can go wrong while it calculates.
-/
namespace Simplex

/-- Why a session stopped calculating, or that it has not. -/
inductive Termination where
  | optimal
  | unbounded
  | framingError
  | calculationError
  | notTerminated
  deriving DecidableEq, Repr

namespace Termination

/-- The session has stopped. -/
def isTerminal (t : Termination) : Bool := t != notTerminated

/-- The words for a reason. -/
def message : Termination → String
  | optimal => "Optimal solution reached for the given problem."
  | unbounded => "Solution is unbounded."
  | framingError => "Error while framing the problem."
  | calculationError => "Error while calculating the solution."
  | notTerminated => "Calculation has not terminated."

/-- The name of a reason. -/
def name : Termination → String
  | optimal => "Optimal"
  | unbounded => "Unbounded"
  | framingError => "FramingError"
  | calculationError => "CalculationError"
  | notTerminated => "NotTerminated"

end Termination

/-- Why a calculation cannot go on. -/
inductive CalculationError (α : Type) where
  | notFramed
  | terminated (reason : Termination)
  | notEvaluated (iteration : Nat)
  | missingPivot (iteration : Nat)
  | invalidPivotElement (iteration : Nat) (element : α)
  | iterationNotAdvanced (previous next : Nat)
  | brokenBasis (iteration row : Nat)
  deriving DecidableEq, Repr

/-- The words for a calculation error. -/
def CalculationError.message : CalculationError Float → String
  | notFramed => "Session has not been framed yet"
  | terminated reason => "Session already terminated: " ++ reason.message
  | notEvaluated iteration =>
    "Relative costs of iteration " ++ toString iteration
      ++ " were not computed before choosing a pivot"
  | missingPivot iteration => "Iteration " ++ toString iteration ++ " has no pivot to apply"
  | invalidPivotElement iteration element =>
    "Pivot element " ++ Decimal.text element ++ " of iteration " ++ toString iteration
      ++ " cannot be used"
  | iterationNotAdvanced previous next =>
    "Iteration counter did not advance (" ++ toString previous ++ " -> " ++ toString next ++ ")"
  | brokenBasis iteration row =>
    "Row " ++ toString row ++ " of iteration " ++ toString iteration
      ++ " lost its unit basis column"

end Simplex
