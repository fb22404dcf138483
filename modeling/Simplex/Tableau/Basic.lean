import Simplex.StandardForm

/-!
Tableaux: one row of coefficients for each equation, each with a basis variable, and the first
tableau of a standard form.
-/
namespace Simplex

/-- A row of a tableau. The ratio of its right-hand side to its entry in the pivot column is known
    once a pivot was looked for. -/
structure Row (α : Type) where
  index : Nat
  basis : Symbol
  basisVariable : String
  basisCost : α
  rhs : α
  coefficients : List α
  ratio : Option α
  isPivotRow : Bool
  deriving DecidableEq, Repr

/-- The entry of a row in a column. -/
def Row.coefficient {α : Type} [Scalar α] (r : Row α) (column : Symbol) : α :=
  r.coefficients.getD column.index 0

/-- The element around which a tableau is pivoted. -/
structure Pivot (α : Type) where
  row : Nat
  column : Symbol
  element : α
  deriving DecidableEq, Repr

/-- A tableau of the simplex method. `zj` and `relativeCosts` are empty until it is evaluated. -/
structure Tableau (α : Type) where
  iteration : Nat
  columns : List Symbol
  costs : List α
  rows : List (Row α)
  zj : List α
  relativeCosts : List α
  pivot : Option (Pivot α)
  deriving DecidableEq, Repr

namespace Tableau

variable {α : Type} [Scalar α]

/-- The column of a symbol is one in its own row and zero in every other row, exactly. -/
def isUnitColumn (rows : List (List α)) (own : Nat) (s : Symbol) : Bool :=
  rows.zipIdx.all fun (row, i) => row.getD s.index 0 == (if i = own then 1 else 0)

/-- The basis of an equation: its slack, or the last of its variables that has a unit column and is
    not taken. -/
def initialBasis? (symbols : SymbolTable) (dense : List (List α)) (taken : List Symbol)
    (index : Nat) (c : StandardConstraint α) : Option Symbol :=
  match c.slack with
  | some slack => symbols.symbol? slack
  | none =>
    (c.lhs.reverse.filterMap fun t => symbols.symbol? t.name).find? fun s =>
      !taken.contains s && isUnitColumn dense index s

/-- The first rows, from the equations in order; the first equation without a basis fails. -/
def initialRows (form : StandardForm α) (dense : List (List α)) :
    (taken : List Symbol) → List (StandardConstraint α × List α × Nat) →
      Except FramingError (List (Row α))
  | _, [] => .ok []
  | taken, (c, coefficients, index) :: rest =>
    match initialBasis? form.symbols dense taken index c with
    | none => .error (.noInitialBasis index)
    | some basis =>
      let row : Row α := {
        index := index
        basis := basis
        basisVariable := form.symbols.name basis
        basisCost := form.costs.getD basis.index 0
        rhs := c.rhs
        coefficients := coefficients
        ratio := none
        isPivotRow := false }
      (initialRows form dense (taken ++ [basis]) rest).map (row :: ·)

/-- The first tableau of a standard form, with its basis and not evaluated. -/
def initial (form : StandardForm α) : Except FramingError (Tableau α) :=
  let dense := form.constraints.map fun c => form.symbols.row c.lhs
  (initialRows form dense [] (form.constraints.zip dense.zipIdx)).map fun rows => {
    iteration := 1
    columns := form.symbols.symbols
    costs := form.costs
    rows := rows
    zj := []
    relativeCosts := []
    pivot := none }

/-- Every column has its relative cost. -/
def isEvaluated (t : Tableau α) : Bool := t.relativeCosts.length == t.columns.length

/-- Computes for each column the cost `zj` of the basis that it stands for, and the relative cost
    `zj - cj`. -/
def evaluate (t : Tableau α) : Tableau α :=
  let zj := t.columns.map fun column =>
    Scalar.sum (t.rows.map fun row => row.basisCost * row.coefficient column)
  { t with zj := zj, relativeCosts := List.zipWith (· - ·) zj t.costs }

/-- The value of the objective at the basis. -/
def objectiveValue (t : Tableau α) : α :=
  Scalar.sum (t.rows.map fun row => row.basisCost * row.rhs)

/-- The first row whose basis column differs from a unit column by more than the tolerance. -/
def unitBasisViolation? (t : Tableau α) (tolerance : α) : Option Nat :=
  t.rows.findIdx? fun row => t.rows.any fun other =>
    let expected : α := if other.index = row.index then 1 else 0
    decide (tolerance < Scalar.magnitude (other.coefficient row.basis - expected))

end Tableau

end Simplex
