import Simplex.Command.Program
import Simplex.Json

/-!
Reports and failures of a solve as JSON.
-/
namespace Simplex.Export

/-- A list of numbers. -/
def numbers (xs : List Float) : Json := .ofList .ofFloat xs

/-- A symbol as the number of its column, counted from zero. -/
def symbol (s : Symbol) : Json := .count s.index

/-- A term. -/
def term (t : Term Float) : Json :=
  .object [("coefficient", .ofFloat t.coefficient), ("variable", .string t.name)]

/-- A direction by name. -/
def direction : Direction → Json
  | .minimize => .string "Minimize"
  | .maximize => .string "Maximize"

/-- An equation with the slack that it may have. -/
def constraint (c : StandardConstraint Float) : Json :=
  .object [
    ("lhs", .ofList term c.lhs),
    ("rhs", .ofFloat c.rhs),
    ("slack", .ofOption .string c.slack)]

/-- A standard form. -/
def standardForm (form : StandardForm Float) : Json :=
  .object [
    ("direction", direction form.direction),
    ("objective", .ofList term form.objective),
    ("objective_constant", .ofFloat form.objectiveConstant),
    ("constraints", .ofList constraint form.constraints),
    ("slack_letter", .string form.slackLetter.toString),
    ("slack_count", .count form.slackCount),
    ("symbols", .object [("names", .ofList .string form.symbols.names)])]

/-- A row of a tableau. -/
def row (r : Row Float) : Json :=
  .object [
    ("index", .count r.index),
    ("basis", symbol r.basis),
    ("basis_variable", .string r.basisVariable),
    ("basis_cost", .ofFloat r.basisCost),
    ("rhs", .ofFloat r.rhs),
    ("coefficients", numbers r.coefficients),
    ("ratio", .ofOption .ofFloat r.ratio),
    ("is_pivot_row", .boolean r.isPivotRow)]

/-- A pivot. -/
def pivot (p : Pivot Float) : Json :=
  .object [
    ("row", .count p.row),
    ("column", symbol p.column),
    ("element", .ofFloat p.element)]

/-- A tableau. -/
def tableau (t : Tableau Float) : Json :=
  .object [
    ("iteration", .count t.iteration),
    ("columns", .ofList symbol t.columns),
    ("costs", numbers t.costs),
    ("rows", .ofList row t.rows),
    ("zj", numbers t.zj),
    ("relative_costs", numbers t.relativeCosts),
    ("pivot", .ofOption pivot t.pivot)]

/-- The values of an assignment as members of an object. -/
def assignment (a : Assignment Float) : Json :=
  .object (a.entries.map fun (name, value) => (name, .ofFloat value))

/-- A solution. -/
def solution (s : Solution Float) : Json :=
  .object [
    ("iteration", .count s.iteration),
    ("assignment", assignment s.assignment),
    ("objective_value", .ofFloat s.objectiveValue)]

/-- A report, and the values of the problem's variables. -/
def report (body : Command.ReportBody) : Json :=
  .object [
    ("standard_form", standardForm body.report.standardForm),
    ("tableaux", .ofList tableau body.report.tableaux),
    ("termination", .string body.report.termination.name),
    ("solution", .ofOption solution body.report.solution),
    ("variables", assignment body.values)]

/-- A failure with the tableaux made until then; every object has its keys in order. -/
def failure (body : Command.FailureBody) : Json :=
  .sortKeys (.object [
    ("termination", .string body.termination.name),
    ("message", .string body.message),
    ("error", .string body.error),
    ("tableaux", .ofList tableau body.tableaux)])

end Simplex.Export
