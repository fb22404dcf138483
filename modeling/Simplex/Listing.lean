import Simplex.Solver

/-!
Plain listings of problems, standard forms, tableaux, solutions and reports. Numbers are rounded
to six places.
-/
namespace Simplex.Listing

/-- A number with six places at most. -/
def number (x : Float) : String := Decimal.roundedText 6 x

/-- The text with blanks before it, up to a width in characters. -/
def right (width : Nat) (text : String) : String :=
  String.ofList (List.replicate (width - text.length) ' ') ++ text

/-- The text with blanks behind it, up to a width in characters. -/
def left (width : Nat) (text : String) : String :=
  text ++ String.ofList (List.replicate (width - text.length) ' ')

/-- Lines, each ended. -/
def lines (texts : List String) : String := String.join (texts.map (· ++ "\n"))

/-- A problem: the objective with its constant, then a line for each constraint. -/
def problem (p : Problem Float) : String :=
  let constant :=
    if p.objectiveConstant == 0 then ""
    else (if p.objectiveConstant < 0 then " - " else " + ") ++ number p.objectiveConstant.abs
  lines ((p.direction.symbol ++ " z = " ++ Expression.text p.objective ++ constant)
    :: p.constraints.map fun c => "  " ++ c.text)

/-- A standard form: the objective, the equations, the slacks and the symbols. -/
def standardForm (form : StandardForm Float) : String :=
  let letter := form.slackLetter.toString
  let count := toString form.slackCount
  let slacks :=
    if form.slackCount = 0 then []
    else ["  " ++ count ++ " slack variable(s) named " ++ letter ++ "1.." ++ letter ++ count]
  let symbols := form.symbols.symbols.map fun s => "  " ++ s.text ++ " = " ++ form.symbols.name s
  lines (["max z' = " ++ Expression.text form.objective]
    ++ form.constraints.map (fun c => "  " ++ c.text) ++ slacks ++ ["Symbols:"] ++ symbols)

/-- A line of the solution: a name and its value, in columns. -/
def valueLine (name : String) (value : Float) (marker : String) : String :=
  "  " ++ left 12 name ++ " " ++ right 12 (number value) ++ marker

/-- A solution: the objective, every variable of the problem, then the slacks in the basis. -/
def solution (s : Solution Float) (names : List String) : String :=
  let values := names.map fun name =>
    valueLine name (s.value name) (if s.isBasic name then "" else " (non-basic)")
  let slacks := s.assignment.entries.filter fun (name, _) => !names.contains name
  let slackLines := slacks.map fun (name, value) => valueLine name value ""
  lines (["Objective value: " ++ number s.objectiveValue, "Variables:"] ++ values
    ++ (if slacks.isEmpty then [] else "Basic slacks:" :: slackLines))

/-- The four columns to the left of the coefficients. -/
def head (basis name cost rhs : String) : String :=
  "  " ++ right 4 basis ++ " " ++ right 8 name ++ " " ++ right 10 cost ++ " " ++ right 10 rhs ++ " |"

/-- The cells of the coefficients. -/
def cells (texts : List String) : String := String.join (texts.map fun text => " " ++ right 10 text)

/-- A line of the grid for a row of the tableau; the pivot row is starred. -/
def rowLine (r : Row Float) : String :=
  let basis := (if r.isPivotRow then "*" else "") ++ r.basis.text
  let ratio := match r.ratio with
    | some ratio => number ratio
    | none => "-"
  head basis r.basisVariable (number r.basisCost) (number r.rhs)
    ++ cells (r.coefficients.map number) ++ " | " ++ right 10 ratio

/-- A line of the grid with a label and a number for each column. -/
def labelLine (label : String) (values : List Float) : String :=
  head "" "" "" label ++ cells (values.map number) ++ " |"

/-- A tableau as a grid: the columns, their costs, the rows, the relative costs once they are known,
    and the pivot. -/
def tableau (t : Tableau Float) : String :=
  let title := head "B" "XB" "CB" "b" ++ cells (t.columns.map Symbol.text) ++ " | "
    ++ right 10 "ratio"
  let evaluation :=
    if t.isEvaluated then [labelLine "Zj" t.zj, labelLine "Zj-Cj" t.relativeCosts] else []
  let pivot := match t.pivot with
    | some p =>
      ["  pivot: row " ++ toString (p.row + 1) ++ ", column " ++ p.column.text ++ ", element "
        ++ number p.element]
    | none => []
  lines (["Iteration " ++ toString t.iteration, title, labelLine "Cj" t.costs]
    ++ t.rows.map rowLine ++ evaluation ++ pivot)

/-- Tableaux with an empty line between them. -/
def tableaux (ts : List (Tableau Float)) : String := "\n".intercalate (ts.map tableau)

/-- A report: every tableau if asked for, then the outcome and the solution. -/
def report (r : Report Float) (names : List String) (withTableaux : Bool) : String :=
  let status := if r.solution.isSome then "Status: OPTIMAL" else "Status: UNBOUNDED"
  (if withTableaux then tableaux r.tableaux ++ "\n" else "")
    ++ lines [status, r.termination.message, "Iterations: " ++ toString r.tableaux.length]
    ++ match r.solution with
      | some s => solution s names
      | none => ""

end Simplex.Listing
