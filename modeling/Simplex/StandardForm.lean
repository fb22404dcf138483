import Simplex.Problem
import Simplex.Symbols
import Simplex.Expression.Printer

/-!
The standard form of a problem: an objective to maximize under equations. An inequality becomes an
equation through a slack variable of its own, whose name starts with a letter that no variable of
the problem starts with.
-/
namespace Simplex

/-- Why a problem has no standard form or no first tableau. -/
inductive FramingError where
  | noConstraints
  | emptyObjective
  | noSlackLetter
  | alreadyFramed
  | noInitialBasis (row : Nat)
  deriving DecidableEq, Repr

/-- The words for a framing error. -/
def FramingError.message : FramingError → String
  | noConstraints => "Problem has no constraints"
  | emptyObjective => "Objective function has no variables"
  | noSlackLetter =>
    "No slack letter available: every letter d-z and D-Z starts a variable name"
  | alreadyFramed => "Session was already framed"
  | noInitialBasis row =>
    "Constraint " ++ toString row
      ++ " has no variable usable as an initial basis (needs a unit column)"

/-- An equation of the standard form, with the slack that an inequality got. -/
structure StandardConstraint (α : Type) where
  lhs : Expression α
  rhs : α
  slack : Option String
  deriving DecidableEq, Repr

/-- The written form of an equation, followed by its slack. -/
def StandardConstraint.text (c : StandardConstraint Float) : String :=
  Expression.text c.lhs ++ " = " ++ Decimal.text c.rhs
    ++ match c.slack with
      | some slack => " ; " ++ slack ++ ": slack variable"
      | none => ""

/-- A problem as equations with an objective to maximize; the direction tells the sign of the
    problem's own objective. -/
structure StandardForm (α : Type) where
  direction : Direction
  objective : Expression α
  objectiveConstant : α
  constraints : List (StandardConstraint α)
  slackLetter : Char
  slackCount : Nat
  symbols : SymbolTable

namespace StandardForm

variable {α : Type} [Scalar α]

/-- The letters that slack names may start with, the preferred one first. -/
def slackLetters : List Char :=
  "defghijklmnopqrstuvwxyzDEFGHIJKLMNOPQRSTUVWXYZ".toList

/-- The first slack letter that no name in the problem starts with. -/
def slackLetter? (p : Problem α) : Option Char :=
  let initials := p.terms.filterMap fun t => t.name.toList.head?
  slackLetters.find? fun letter => !initials.contains letter

/-- The name of a slack: the letter and a number, counted from one. -/
def slackName (letter : Char) (number : Nat) : String :=
  letter.toString ++ toString number

/-- An inequality `lhs ≤ rhs` as an equation with a slack. -/
def withSlack (slack : String) (lhs : Expression α) (rhs : α) : StandardConstraint α :=
  ⟨lhs ++ [{ coefficient := 1, name := slack }], rhs, some slack⟩

/-- The equations of constraints when some slacks are in use: an upper bound gets the next slack, a
    lower bound does so after both sides are negated, and an equation stays as it is. -/
def equations (letter : Char) : (used : Nat) → List (Constraint α) → List (StandardConstraint α)
  | _, [] => []
  | used, c :: rest =>
    match c.relation with
    | .eq => ⟨c.lhs, c.rhs, none⟩ :: equations letter used rest
    | .lt | .le =>
      withSlack (slackName letter (used + 1)) c.lhs c.rhs :: equations letter (used + 1) rest
    | .gt | .ge =>
      withSlack (slackName letter (used + 1)) (c.lhs.map Term.negated) (-c.rhs)
        :: equations letter (used + 1) rest

/-- The terms of the objective to maximize: the variables of the problem's objective, negated when
    it is to be minimized. -/
def signedObjective (p : Problem α) : Expression α :=
  match p.direction with
  | .maximize => p.objective.variableTerms
  | .minimize => p.objective.variableTerms.map Term.negated

/-- The standard form of a problem; slacks are part of its objective at no cost. -/
def ofProblem (p : Problem α) : Except FramingError (StandardForm α) :=
  if p.constraints.isEmpty then .error .noConstraints
  else if p.objective.all Term.isConstant then .error .emptyObjective
  else
    match slackLetter? p with
    | none => .error .noSlackLetter
    | some letter =>
      let constraints := equations letter 0 p.constraints
      let slacks := constraints.filterMap StandardConstraint.slack
      let objective : Expression α :=
        signedObjective p ++ slacks.map fun slack => { coefficient := 0, name := slack }
      .ok {
        direction := p.direction
        objective := objective
        objectiveConstant := p.objectiveConstant
        constraints := constraints
        slackLetter := letter
        slackCount := slacks.length
        symbols := SymbolTable.ofNames
          ((objective ++ constraints.flatMap StandardConstraint.lhs).map Term.name) }

/-- The cost of each symbol. -/
def costs (form : StandardForm α) : List α := form.symbols.row form.objective

end StandardForm

end Simplex
