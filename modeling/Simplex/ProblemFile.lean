/-!
Problem files: the texts of a problem and a section of solver settings.
-/
namespace Simplex

/-- The solver settings of a problem file. -/
structure SolverSection where
  maxIterations : Option Nat
  tolerance : Option Float
  deriving DecidableEq, Repr

/-- The contents of a problem file; every key may be missing. -/
structure ProblemFile where
  direction : Option String
  objective : Option String
  constraints : List String
  solver : SolverSection
  deriving DecidableEq, Repr

/-- A file that says nothing. -/
def ProblemFile.empty : ProblemFile := ⟨none, none, [], ⟨none, none⟩⟩

end Simplex
