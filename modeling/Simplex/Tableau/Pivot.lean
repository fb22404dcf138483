import Simplex.Tableau.Basic
import Simplex.Termination

/-!
Choosing a pivot and pivoting: the column with the least relative cost enters, the row with the
least positive ratio leaves, and a Gauss-Jordan step makes the next tableau.
-/
namespace Simplex

/-- What an evaluated tableau calls for. -/
inductive PivotChoice (α : Type) where
  | optimal
  | unbounded (column : Symbol)
  | pivot (pivot : Pivot α)
  deriving DecidableEq, Repr

namespace Tableau

variable {α : Type} [Scalar α]

/-- The column with the least relative cost below minus the tolerance, the first of equal ones;
    none if there is no such column or the tableau is not evaluated. -/
def enteringColumn? (t : Tableau α) (tolerance : α) : Option Symbol :=
  if t.isEvaluated then
    (t.columns.foldl (fun (least, entering) column =>
      let cost := t.relativeCosts.getD column.index 0
      if cost < least then (cost, some column) else (least, entering)) (-tolerance, none)).2
  else none

/-- The row with its ratio for a pivot column: none where the entry is not larger than the
    tolerance. -/
def Row.withRatio (r : Row α) (column : Symbol) (tolerance : α) : Row α :=
  let entry := r.coefficient column
  { r with
    ratio := if tolerance < Scalar.magnitude entry then some (r.rhs / entry) else none
    isPivotRow := false }

/-- The better of a row and the best one so far: only positive finite ratios count, and an equal
    ratio does not replace the earlier one. -/
def better (best : Option (Row α × α)) (r : Row α) : Option (Row α × α) :=
  match r.ratio, best with
  | some ratio, none =>
    if 0 < ratio && Scalar.isFinite ratio then some (r, ratio) else none
  | some ratio, some (_, least) => if 0 < ratio && ratio < least then some (r, ratio) else best
  | none, _ => best

/-- The first row with the least positive ratio. -/
def leavingRow? (rows : List (Row α)) : Option (Row α) :=
  (rows.foldl better none).map Prod.fst

/-- Looks for a pivot, and records the ratios and the pivot that is found. -/
def selectPivot (t : Tableau α) (tolerance : α) :
    Tableau α × Except (CalculationError α) (PivotChoice α) :=
  if !t.isEvaluated then (t, .error (.notEvaluated t.iteration))
  else
    match t.enteringColumn? tolerance with
    | none => (t, .ok .optimal)
    | some column =>
      let rows := t.rows.map fun r => Row.withRatio r column tolerance
      match leavingRow? rows with
      | none => ({ t with rows := rows }, .ok (.unbounded column))
      | some leaving =>
        let pivot : Pivot α := ⟨leaving.index, column, leaving.coefficient column⟩
        ({ t with
            rows := rows.map fun r => { r with isPivotRow := r.index == leaving.index }
            pivot := some pivot },
          .ok (.pivot pivot))

/-- The row that the recorded pivot names. -/
def pivotRow? (t : Tableau α) : Option (Row α) := t.pivot.bind fun p => t.rows[p.row]?

/-- The pivot row after its division by the pivot element, which becomes exactly one. -/
def normalizedRow (t : Tableau α) (symbols : SymbolTable) (p : Pivot α) (r : Row α) : Row α where
  index := p.row
  basis := p.column
  basisVariable := symbols.name p.column
  basisCost := t.costs.getD p.column.index 0
  rhs := r.rhs / p.element
  coefficients := (r.coefficients.map (· / p.element)).set p.column.index 1
  ratio := none
  isPivotRow := false

/-- Another row after the pivot row was subtracted as often as its entry in the pivot column says;
    that entry becomes exactly zero. -/
def eliminatedRow (p : Pivot α) (normalized r : Row α) : Row α :=
  let factor := r.coefficient p.column
  { r with
    rhs := r.rhs - normalized.rhs * factor
    coefficients :=
      (List.zipWith (fun a b => a - b * factor) r.coefficients normalized.coefficients).set
        p.column.index 0
    ratio := none
    isPivotRow := false }

/-- The next tableau: a Gauss-Jordan step around the recorded pivot. -/
def pivoted (t : Tableau α) (symbols : SymbolTable) :
    Except (CalculationError α) (Tableau α) :=
  match t.pivot with
  | none => .error (.missingPivot t.iteration)
  | some p =>
    match t.rows[p.row]? with
    | none => .error (.missingPivot t.iteration)
    | some source =>
      if p.element == 0 || !Scalar.isFinite p.element then
        .error (.invalidPivotElement t.iteration p.element)
      else
        let normalized := t.normalizedRow symbols p source
        .ok { t with
          iteration := t.iteration + 1
          rows := t.rows.map fun r =>
            if r.index = p.row then normalized else eliminatedRow p normalized r
          zj := []
          relativeCosts := []
          pivot := none }

end Tableau

end Simplex
