import Simplex.Draft
import Simplex.ProblemFile
import Simplex.Solver

/-!
The input of a run: options given directly win over the values of a problem file, and what neither
gives has a default.
-/
namespace Simplex

/-- The problem options of a run, each of which may be missing. -/
structure Options where
  objective : Option String
  constraints : List String
  direction : Option String
  maxIterations : Option Nat
  tolerance : Option Float

/-- A problem as texts, and how to solve it. -/
structure Input where
  draft : Draft
  solver : Solver Float

/-- Why options and file give no input. -/
inductive InputError where
  | unreadable (path : String) (reason : String)
  | invalidFile (path : String) (reason : String)
  | missingObjective
  | invalidTolerance (tolerance : Float)

/-- The words for an input error. -/
def InputError.message : InputError → String
  | unreadable path reason => "Error reading " ++ path ++ ": " ++ reason
  | invalidFile path reason => "Invalid problem file " ++ path ++ ": " ++ reason
  | missingObjective =>
    "No objective given; pass --objective or set `objective` in the problem file"
  | invalidTolerance tolerance =>
    "Tolerance must be a finite, non-negative number, got " ++ Decimal.text tolerance

/-- A tolerance must be finite and not negative. -/
def checkTolerance (tolerance : Float) : Except InputError Float :=
  if !tolerance.isFinite || tolerance < 0 then .error (.invalidTolerance tolerance)
  else .ok tolerance

/-- The input that options and a problem file give together; the objective is checked before the
    tolerance. -/
def Options.merge (options : Options) (file : ProblemFile) : Except InputError Input := do
  let objective ← match options.objective.or file.objective with
    | some objective => pure objective
    | none => throw .missingObjective
  let tolerance ← match options.tolerance.or file.solver.tolerance with
    | some tolerance => checkTolerance tolerance
    | none => pure Solver.standard.tolerance
  let maxIterations := options.maxIterations.or file.solver.maxIterations
  pure {
    draft := {
      objective := objective
      constraints := if options.constraints.isEmpty then file.constraints else options.constraints
      direction := options.direction.or file.direction }
    solver := ⟨maxIterations.getD Solver.standard.maxIterations, tolerance⟩ }

end Simplex
