import Simplex.Comparison

/-!
Problems in the making: the texts of an objective, of constraints and of a direction, and the
problem that they state. The texts are checked in that order: direction, objective, whether there
is a constraint at all, then each constraint from the first to the last.
-/
namespace Simplex

/-- Why texts state no problem; each cause carries the text at fault as it was given. -/
inductive ReadError where
  | expression (text : String) (issue : Expression.Issue)
  | constraint (text : String) (issue : Comparison.Issue)
  | direction (error : UnknownDirection)
  | noConstraints
  deriving DecidableEq, Repr

/-- The words for an error. -/
def ReadError.message : ReadError → String
  | expression text issue => "Invalid expression '" ++ text ++ "': " ++ issue.message
  | constraint text issue => "Invalid constraint '" ++ text ++ "': " ++ issue.message
  | direction error => error.message
  | noConstraints => "At least one constraint is required"

/-- Reads an expression from a text without blanks. -/
def readExpression (text : String) : Except ReadError (Expression Float) :=
  (Expression.read text).mapError (.expression text)

/-- Reads a constraint as it is written. -/
def readComparison (text : String) : Except ReadError (Comparison Float) :=
  (Comparison.read text).mapError (.constraint text)

/-- Reads a constraint and normalizes it. -/
def readConstraint (text : String) : Except ReadError (Constraint Float) :=
  (readComparison text).map Comparison.normalize

/-- A problem as it is written: an expression to optimize and comparisons to satisfy, nothing
    merged yet. -/
structure Statement (α : Type) where
  direction : Direction
  objective : Expression α
  comparisons : List (Comparison α)
  deriving DecidableEq, Repr

/-- The problem that a statement states: the objective and every comparison are normalized. -/
def Statement.normalize {α : Type} [Scalar α] (s : Statement α) : Problem α where
  direction := s.direction
  objective := s.objective.variableTerms.merge
  objectiveConstant := s.objective.constant
  constraints := s.comparisons.map Comparison.normalize

/-- The raw texts of a problem. -/
structure Draft where
  objective : String
  constraints : List String
  direction : Option String
  deriving DecidableEq, Repr

/-- Why a draft states no problem, with the raw texts for diagnosis. -/
structure DraftError where
  direction : String
  objective : String
  constraints : List String
  cause : ReadError
  deriving DecidableEq, Repr

/-- The words for a draft that states no problem. -/
def DraftError.message (e : DraftError) : String :=
  "Could not pre-process " ++ e.direction ++ " problem '" ++ e.objective ++ "' with "
    ++ toString e.constraints.length ++ " constraint(s): " ++ e.cause.message

namespace Draft

/-- A draft with its objective alone. -/
def ofObjective (objective : String) : Draft := ⟨objective, [], none⟩

/-- The draft with a direction, in place of an earlier one. -/
def withDirection (d : Draft) (direction : String) : Draft :=
  { d with direction := some direction }

/-- The draft with more constraints at the end. -/
def addConstraints (d : Draft) (constraints : List String) : Draft :=
  { d with constraints := d.constraints ++ constraints }

/-- The draft with one more constraint at the end. -/
def addConstraint (d : Draft) (constraint : String) : Draft := d.addConstraints [constraint]

/-- Reads the texts of a draft; the first check that fails decides. -/
def read (d : Draft) : Except ReadError (Statement Float) := do
  let direction ← match d.direction with
    | none => pure default
    | some text => (Direction.read text).mapError ReadError.direction
  let objective ← readExpression (Text.withoutBlanks d.objective)
  if d.constraints.isEmpty then throw .noConstraints
  let comparisons ← d.constraints.mapM readComparison
  pure ⟨direction, objective, comparisons⟩

/-- The error of a draft, with its raw texts; a direction that was not given is minimization. -/
def error (d : Draft) (cause : ReadError) : DraftError where
  direction := d.direction.getD (default : Direction).symbol
  objective := d.objective
  constraints := d.constraints
  cause := cause

/-- The problem that a draft states. -/
def build (d : Draft) : Except DraftError (Problem Float) :=
  (d.read.map Statement.normalize).mapError d.error

end Draft

/-- Builds the problem of an objective, constraints and a direction, minimization if there is none. -/
def buildProblem (objective : String) (constraints : List String) (direction : Option String) :
    Except DraftError (Problem Float) :=
  let draft := (Draft.ofObjective objective).addConstraints constraints
  match direction with
  | some text => (draft.withDirection text).build
  | none => draft.build

end Simplex
