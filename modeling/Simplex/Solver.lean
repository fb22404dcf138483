import Simplex.Session

/-!
Solving a problem in one go: a report with every tableau if the method ends, else a failure with
the tableaux made until then.
-/
namespace Simplex

/-- What a finished solve produced; there is a solution if it is optimal. -/
structure Report (α : Type) where
  standardForm : StandardForm α
  tableaux : List (Tableau α)
  termination : Termination
  solution : Option (Solution α)

/-- The method ended at an optimum. -/
def Report.isOptimal {α : Type} (r : Report α) : Bool := r.termination == .optimal

/-- Why a solve did not finish. -/
inductive SolveError (α : Type) where
  | framing (error : FramingError)
  | calculation (error : CalculationError α) (tableaux : List (Tableau α))
  | iterationLimit (limit : Nat) (tableaux : List (Tableau α))
  deriving DecidableEq, Repr

namespace SolveError

variable {α : Type}

/-- The reason that the session of a failed solve ended with. -/
def termination : SolveError α → Termination
  | framing _ => .framingError
  | calculation _ _ => .calculationError
  | iterationLimit _ _ => .notTerminated

/-- The tableaux made before the failure. -/
def tableaux : SolveError α → List (Tableau α)
  | framing _ => []
  | calculation _ tableaux => tableaux
  | iterationLimit _ tableaux => tableaux

/-- The words for a failed solve. -/
def message : SolveError Float → String
  | framing error => "Framing error: " ++ error.message
  | calculation error _ => "Calculation error: " ++ error.message
  | iterationLimit limit _ => "No termination after " ++ toString limit ++ " iterations"

end SolveError

/-- How to solve: the greatest number of pivots, and the tolerance of sign and zero tests. -/
structure Solver (α : Type) where
  maxIterations : Nat
  tolerance : α
  deriving DecidableEq, Repr

namespace Solver

/-- Ten thousand pivots and a tolerance of `10^-9`. -/
def standard : Solver Float := ⟨10000, 1e-9⟩

variable {α : Type} [Scalar α]

/-- A fresh session for a problem. -/
def session (solver : Solver α) (p : Problem α) : Session α :=
  Session.ofProblem p solver.tolerance

/-- Solves a problem: frames it and runs it to the end. -/
def solve (solver : Solver α) (p : Problem α) : Except (SolveError α) (Report α) :=
  match (solver.session p).frame with
  | (_, .error e) => .error (.framing e)
  | (framed, .ok _) =>
    match framed.run solver.maxIterations with
    | (s, .error e) => .error (.calculation e s.tableaux)
    | (s, .ok .notTerminated) => .error (.iterationLimit solver.maxIterations s.tableaux)
    | (s, .ok termination) =>
      match s.standardForm? with
      | none => .error (.calculation .notFramed [])
      | some form => .ok ⟨form, s.tableaux, termination, s.solution?⟩

end Solver

end Simplex
