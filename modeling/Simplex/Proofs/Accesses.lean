import Simplex.Session
import Simplex.Proofs.UnitColumns

/-!
Accesses by index. `Checked` repeats the calculations on a tableau with every access checked, and
gives nothing where one is out of range. On tableaux of the standard form's shape none is: the
checked calculations succeed, and give what the unchecked ones give.
-/
namespace Simplex

variable {α : Type} [Scalar α]

namespace Checked

/-- The entry of a row in a column. -/
def entry (r : Row α) (s : Symbol) : Option α := r.coefficients[s.index]?

/-- A row of numbers with another one at a place that it has. -/
def put (xs : List α) (place : Nat) (x : α) : Option (List α) :=
  if place < xs.length then some (xs.set place x) else none

/-- Evaluates a tableau: every row is asked for its entry in every column. -/
def evaluate (t : Tableau α) : Option (Tableau α) := do
  let zj ← t.columns.mapM fun column => do
    let products ← t.rows.mapM fun r => (entry r column).map (r.basisCost * ·)
    pure (Scalar.sum products)
  pure { t with zj := zj, relativeCosts := List.zipWith (· - ·) zj t.costs }

/-- The column with the least relative cost: every column is asked for its cost. -/
def enteringColumn? (t : Tableau α) (tolerance : α) : Option (Option Symbol) :=
  if t.isEvaluated then do
    let found ← t.columns.foldlM (fun (least, entering) column =>
      (t.relativeCosts[column.index]?).map fun cost =>
        if cost < least then (cost, some column) else (least, entering)) (-tolerance, none)
    pure found.2
  else pure none

/-- A row with its ratio for a pivot column. -/
def withRatio (r : Row α) (column : Symbol) (tolerance : α) : Option (Row α) := do
  let x ← entry r column
  pure { r with
    ratio := if tolerance < Scalar.magnitude x then some (r.rhs / x) else none
    isPivotRow := false }

/-- Looks for a pivot: the row that leaves is marked at the place that its number says. -/
def selectPivot (t : Tableau α) (tolerance : α) :
    Option (Tableau α × Except (CalculationError α) (PivotChoice α)) :=
  if !t.isEvaluated then pure (t, .error (.notEvaluated t.iteration))
  else do
    match ← enteringColumn? t tolerance with
    | none => pure (t, .ok .optimal)
    | some column => do
      let rows ← t.rows.mapM fun r => withRatio r column tolerance
      match (Tableau.leavingRow? rows).map Row.index with
      | none => pure ({ t with rows := rows }, .ok (.unbounded column))
      | some place => do
        let leaving ← rows[place]?
        let element ← entry leaving column
        pure
          ({ t with
              rows := rows.set place { leaving with isPivotRow := true }
              pivot := some ⟨place, column, element⟩ },
            .ok (.pivot ⟨place, column, element⟩))

/-- The pivot row after its division, with the name and the cost of the column that enters. -/
def normalizedRow (t : Tableau α) (symbols : SymbolTable) (p : Pivot α) (r : Row α) :
    Option (Row α) := do
  let coefficients ← put (r.coefficients.map (· / p.element)) p.column.index 1
  let name ← symbols.names[p.column.index]?
  let cost ← t.costs[p.column.index]?
  pure {
    index := p.row
    basis := p.column
    basisVariable := name
    basisCost := cost
    rhs := r.rhs / p.element
    coefficients := coefficients
    ratio := none
    isPivotRow := false }

/-- Another row after the pivot row was subtracted as often as its entry says. -/
def eliminatedRow (p : Pivot α) (normalized r : Row α) : Option (Row α) := do
  let factor ← entry r p.column
  let coefficients ← put
    (List.zipWith (fun a b => a - b * factor) r.coefficients normalized.coefficients)
    p.column.index 0
  pure { r with
    rhs := r.rhs - normalized.rhs * factor
    coefficients := coefficients
    ratio := none
    isPivotRow := false }

/-- The next tableau. -/
def pivoted (t : Tableau α) (symbols : SymbolTable) :
    Option (Except (CalculationError α) (Tableau α)) :=
  match t.pivot with
  | none => pure (.error (.missingPivot t.iteration))
  | some p =>
    match t.rows[p.row]? with
    | none => pure (.error (.missingPivot t.iteration))
    | some source =>
      if p.element == 0 || !Scalar.isFinite p.element then
        pure (.error (.invalidPivotElement t.iteration p.element))
      else do
        let normalized ← normalizedRow t symbols p source
        let rows ← t.rows.mapM fun r =>
          if r.index = p.row then pure normalized else eliminatedRow p normalized r
        pure (.ok { t with
          iteration := t.iteration + 1
          rows := rows
          zj := []
          relativeCosts := []
          pivot := none })

/-- The first row whose basis column differs from a unit column: every row is asked for its entry in
    every basis column. -/
def unitBasisViolation? (t : Tableau α) (tolerance : α) : Option (Option Nat) := do
  let broken ← t.rows.mapM fun row => do
    let far ← t.rows.mapM fun other => (entry other row.basis).map fun x =>
      let expected : α := if other.index = row.index then 1 else 0
      decide (tolerance < Scalar.magnitude (x - expected))
    pure (far.any id)
  pure (broken.findIdx? id)

/-- A step of a history. -/
def advance (h : History α) (tolerance : α) :
    Option (History α × Except (CalculationError α) Step) := do
  let evaluated ← evaluate h.latest
  let (current, choice) ← selectPivot evaluated tolerance
  let inspected : History α := { h with latest := current }
  match choice with
  | .error e => pure (inspected, .error e)
  | .ok .optimal => pure (inspected, .ok .optimal)
  | .ok (.unbounded column) => pure (inspected, .ok (.unbounded column))
  | .ok (.pivot _) => do
    match ← pivoted current h.form.symbols with
    | .error e => pure (inspected, .error e)
    | .ok next =>
      if next.iteration ≤ current.iteration then
        pure (inspected, .error (.iterationNotAdvanced current.iteration next.iteration))
      else do
        match ← unitBasisViolation? next tolerance with
        | some row => pure (inspected, .error (.brokenBasis next.iteration row))
        | none =>
          pure ({ h with earlier := current :: h.earlier, latest := next },
            .ok (.pivoted next.iteration))

/-! ### Lists -/

omit [Scalar α] in
theorem mapM_eq_map {β γ : Type} {f : β → Option γ} {g : β → γ} {xs : List β}
    (each : ∀ x ∈ xs, f x = some (g x)) : xs.mapM f = some (xs.map g) := by
  induction xs with
  | nil => rfl
  | cons x rest ih =>
    rw [List.forall_mem_cons] at each
    simp [List.mapM_cons, each.1, ih each.2]

omit [Scalar α] in
theorem foldlM_eq_foldl {β γ : Type} {f : γ → β → Option γ} {g : γ → β → γ} {xs : List β}
    (each : ∀ x ∈ xs, ∀ state, f state x = some (g state x)) (start : γ) :
    xs.foldlM f start = some (xs.foldl g start) := by
  induction xs generalizing start with
  | nil => rfl
  | cons x rest ih =>
    rw [List.forall_mem_cons] at each
    simp [List.foldlM_cons, each.1, ih each.2]

theorem entry_eq {r : Row α} {s : Symbol} (inside : s.index < r.coefficients.length) :
    entry r s = some (r.coefficient s) := by
  simp [entry, Row.coefficient, inside]

omit [Scalar α] in
theorem put_eq {xs : List α} {place : Nat} (inside : place < xs.length) (x : α) :
    put xs place x = some (xs.set place x) := if_pos inside

end Checked

namespace Tableau

variable {form : StandardForm α} {t u : Tableau α} {tolerance : α}

/-- The pivot that a tableau has recorded, if any, is in one of its columns. -/
def PivotInside (form : StandardForm α) (t : Tableau α) : Prop :=
  ∀ p, t.pivot = some p → p.column ∈ form.symbols.symbols

section Scan

variable [IsStrictOrder α (· < ·)]

theorem mem_columns_of_entering {s : Symbol} (entering : t.enteringColumn? tolerance = some s) :
    s ∈ t.columns := by
  by_cases evaluated : t.isEvaluated = true
  · have spec := enteringColumn?_spec evaluated tolerance
    rw [entering] at spec
    exact spec.1
  · simp [enteringColumn?, evaluated] at entering

/-- The row that leaves is one of the rows. -/
theorem mem_of_leaving {rows : List (Row α)} {r : Row α} (leaving : leavingRow? rows = some r) :
    r ∈ rows := by
  have spec := leavingRow?_spec rows
  rw [leaving] at spec
  exact spec.1

end Scan

namespace Regular

variable (h : t.Regular)
include h

theorem entry_eq {r : Row α} (member : r ∈ t.rows) {s : Symbol} (column : s ∈ t.columns) :
    Checked.entry r s = some (r.coefficient s) := by
  apply Checked.entry_eq
  rw [h.wide r member]
  exact h.index_lt column

theorem relativeCosts_eq_map (evaluated : t.isEvaluated = true) :
    t.relativeCosts = t.columns.map t.relativeCost := by
  have width : t.relativeCosts.length = t.columns.length := by
    simpa [Tableau.isEvaluated] using evaluated
  apply List.ext_getElem
  · rw [List.length_map, width]
  · intro i inside _
    have bound : i < t.columns.length := width ▸ inside
    have place : t.columns[i] = ⟨i⟩ := by
      rw [List.getElem_of_eq h.columns bound]
      simp
    simp [place, relativeCost, inside]

theorem checked_enteringColumn? :
    Checked.enteringColumn? t tolerance = some (t.enteringColumn? tolerance) := by
  unfold Checked.enteringColumn? enteringColumn?
  by_cases evaluated : t.isEvaluated = true
  · have width : t.relativeCosts.length = t.columns.length := by
      simpa [Tableau.isEvaluated] using evaluated
    rw [if_pos evaluated, if_pos evaluated, Checked.foldlM_eq_foldl (g := fun state s =>
      if t.relativeCost s < state.1 then (t.relativeCost s, some s) else state)]
    · rfl
    · intro s column state
      have inside : s.index < t.relativeCosts.length := by
        rw [width]
        exact h.index_lt column
      simp [relativeCost, inside]
  · rw [if_neg evaluated, if_neg evaluated]
    rfl

/-- Every access of a look for a pivot is in range. -/
theorem checked_selectPivot [IsStrictOrder α (· < ·)] :
    Checked.selectPivot t tolerance = some (t.selectPivot tolerance) := by
  unfold Checked.selectPivot selectPivot
  rw [h.checked_enteringColumn?]
  by_cases evaluated : t.isEvaluated = true
  · simp only [evaluated, Bool.not_true, Bool.false_eq_true, if_false]
    cases entering : t.enteringColumn? tolerance with
    | none => rfl
    | some s =>
      have column : s ∈ t.columns := mem_columns_of_entering entering
      have rated : t.rows.mapM (fun r => Checked.withRatio r s tolerance) =
          some (t.withRatios s tolerance) := by
        apply Checked.mapM_eq_map
        intro r member
        simp only [Checked.withRatio, h.entry_eq member column]
        rfl
      have regular : ({ t with rows := t.withRatios s tolerance } : Tableau α).Regular := by
        apply h.of_bare
        simp [bare, withRatios, Row.bare, Row.withRatio]
      have rows : t.rows.map (fun r => Row.withRatio r s tolerance) =
          t.withRatios s tolerance := rfl
      simp only [Option.bind_eq_bind, Option.bind_some, rated, rows]
      cases leaves : leavingRow? (t.withRatios s tolerance) with
      | none => rfl
      | some leaving =>
        have member := mem_of_leaving leaves
        have place := regular.numbered.getElem?_index member
        have marked := regular.numbered.set_marked (List.forall_mem_map.mpr fun r _ => rfl) member
        simp only [Option.map_some, place, regular.entry_eq member column, marked, Option.bind_some]
        rfl
  · simp only [evaluated]
    rfl

end Regular

namespace Fits

variable (h : t.Fits form)
include h

theorem regular : t.Regular where
  columns := by
    rw [h.columns, SymbolTable.length_symbols]
    rfl
  numbered := h.rowsNumbered
  wide r member := by rw [h.wide r member, h.columns, SymbolTable.length_symbols]

theorem entry_eq {r : Row α} (member : r ∈ t.rows) {s : Symbol}
    (column : s ∈ form.symbols.symbols) : Checked.entry r s = some (r.coefficient s) :=
  h.regular.entry_eq member (h.columns ▸ column)

theorem relativeCosts_eq_map (evaluated : t.isEvaluated = true) :
    t.relativeCosts = t.columns.map t.relativeCost := h.regular.relativeCosts_eq_map evaluated

theorem checked_evaluate : Checked.evaluate t = some t.evaluate := by
  have products : ∀ s ∈ t.columns,
      t.rows.mapM (fun r => (Checked.entry r s).map (r.basisCost * ·)) =
        some (t.rows.map fun r => r.basisCost * r.coefficient s) := by
    intro s column
    apply Checked.mapM_eq_map
    intro r member
    rw [h.entry_eq member (h.columns ▸ column)]
    rfl
  unfold Checked.evaluate
  rw [Checked.mapM_eq_map (g := fun s =>
    Scalar.sum (t.rows.map fun r => r.basisCost * r.coefficient s))]
  · rfl
  · intro s column
    rw [products s column]
    rfl

theorem checked_normalizedRow {p : Pivot α} (column : p.column ∈ form.symbols.symbols)
    {source : Row α} (member : source ∈ t.rows) :
    Checked.normalizedRow t form.symbols p source =
      some (t.normalizedRow form.symbols p source) := by
  have inside : p.column.index < form.symbols.size := form.symbols.mem_symbols.mp column
  have width : p.column.index < (source.coefficients.map (· / p.element)).length := by
    simpa [h.wide source member] using inside
  have name : form.symbols.names[p.column.index]? = some (form.symbols.name p.column) := by
    rw [List.getElem?_eq_getElem inside, form.symbols.name_eq_getElem inside]
  have cost : t.costs[p.column.index]? = some (t.costs.getD p.column.index 0) := by
    have costs : p.column.index < t.costs.length := by
      rw [h.costs, StandardForm.costs, SymbolTable.length_row]
      exact inside
    simp [costs]
  simp only [Checked.normalizedRow, Checked.put_eq width, name, cost]
  rfl

theorem checked_eliminatedRow {p : Pivot α} (column : p.column ∈ form.symbols.symbols)
    {source r : Row α} (own : source ∈ t.rows) (member : r ∈ t.rows) :
    Checked.eliminatedRow p (t.normalizedRow form.symbols p source) r =
      some (eliminatedRow p (t.normalizedRow form.symbols p source) r) := by
  have inside : p.column.index < form.symbols.size := form.symbols.mem_symbols.mp column
  have width : p.column.index < (List.zipWith (fun a b => a - b * r.coefficient p.column)
      r.coefficients (t.normalizedRow form.symbols p source).coefficients).length := by
    simpa [normalizedRow, h.wide r member, h.wide source own] using inside
  simp only [Checked.eliminatedRow, h.entry_eq member column, Option.bind_eq_bind,
    Option.bind_some, Checked.put_eq width]
  rfl

theorem checked_pivoted (column : t.PivotInside form) :
    Checked.pivoted t form.symbols = some (t.pivoted form.symbols) := by
  unfold Checked.pivoted Tableau.pivoted
  cases pivot : t.pivot with
  | none => rfl
  | some p =>
    cases found : t.rows[p.row]? with
    | none => simp only [found]; rfl
    | some source =>
      have own := List.mem_of_getElem? found
      by_cases unusable : (p.element == 0 || !Scalar.isFinite p.element) = true
      · simp only [found, unusable, if_true]
        rfl
      · have rows : t.rows.mapM (fun r => if r.index = p.row
            then pure (t.normalizedRow form.symbols p source)
            else Checked.eliminatedRow p (t.normalizedRow form.symbols p source) r) =
            some (t.rows.map fun r => if r.index = p.row then t.normalizedRow form.symbols p source
              else eliminatedRow p (t.normalizedRow form.symbols p source) r) := by
          apply Checked.mapM_eq_map
          intro r member
          by_cases same : r.index = p.row
          · simp [same]
          · simp [same, h.checked_eliminatedRow (column p pivot) own member]
        simp only [found, unusable, h.checked_normalizedRow (column p pivot) own,
          Option.bind_eq_bind, Option.bind_some, rows]
        rfl

theorem checked_unitBasisViolation? :
    Checked.unitBasisViolation? t tolerance = some (t.unitBasisViolation? tolerance) := by
  have far : ∀ row ∈ t.rows, t.rows.mapM (fun other => (Checked.entry other row.basis).map fun x =>
      let expected : α := if other.index = row.index then 1 else 0
      decide (tolerance < Scalar.magnitude (x - expected))) =
      some (t.rows.map fun other =>
        let expected : α := if other.index = row.index then 1 else 0
        decide (tolerance < Scalar.magnitude (other.coefficient row.basis - expected))) := by
    intro row member
    apply Checked.mapM_eq_map
    intro other listed
    rw [h.entry_eq listed (h.basis row member)]
    rfl
  unfold Checked.unitBasisViolation? Tableau.unitBasisViolation?
  rw [Checked.mapM_eq_map (g := fun row => t.rows.any fun other =>
    let expected : α := if other.index = row.index then 1 else 0
    decide (tolerance < Scalar.magnitude (other.coefficient row.basis - expected)))]
  · simp [List.findIdx?_map]
  · intro row member
    rw [far row member]
    simp [List.any_map]

end Fits

/-- Every access is in range, whatever is calculated on the tableau. -/
structure InRange (form : StandardForm α) (t : Tableau α) : Prop where
  evaluate : Checked.evaluate t = some t.evaluate
  selectPivot (tolerance : α) : Checked.selectPivot t tolerance = some (t.selectPivot tolerance)
  lookAhead (tolerance : α) :
    Checked.selectPivot t.evaluate tolerance = some (t.evaluate.selectPivot tolerance)
  pivoted : Checked.pivoted t form.symbols = some (t.pivoted form.symbols)
  unitBasisViolation? (tolerance : α) :
    Checked.unitBasisViolation? t tolerance = some (t.unitBasisViolation? tolerance)

variable [IsStrictOrder α (· < ·)]

/-- A pivot that was found is in a column, and no pivot is recorded where none was found. -/
theorem Fits.pivotInside_of_selected (h : t.Fits form) (none : t.pivot = none)
    {choice : Except (CalculationError α) (PivotChoice α)}
    (chosen : t.evaluate.selectPivot tolerance = (u, choice)) : u.PivotInside form := by
  intro p recorded
  obtain ⟨u', choice', answered⟩ := h.columnsInOrder.selectPivot_isOk tolerance
  rw [answered] at chosen
  cases chosen
  obtain ⟨_, found⟩ := selectPivot_ok answered
  have before : t.evaluate.pivot = Option.none := none
  cases choice' with
  | optimal =>
    rw [found.2, before] at recorded
    cases recorded
  | unbounded s =>
    rw [found.2.2] at recorded
    rw [before] at recorded
    cases recorded
  | pivot q =>
    obtain ⟨entering, leaving, _, _, rfl⟩ := found
    cases recorded
    have member : p.column ∈ t.columns := mem_columns_of_entering (t := t.evaluate) entering
    exact h.columns ▸ member

theorem Fits.inRange (h : t.Fits form) (column : t.PivotInside form) : t.InRange form where
  evaluate := h.checked_evaluate
  selectPivot _ := h.regular.checked_selectPivot
  lookAhead _ := (h.of_bare t.bare_evaluate.symm).regular.checked_selectPivot
  pivoted := h.checked_pivoted column
  unitBasisViolation? _ := h.checked_unitBasisViolation?

end Tableau

/-- A step never asks for an entry that is not there. -/
theorem History.checked_advance [IsStrictOrder α (· < ·)] {h : History α} {tolerance : α}
    (fits : h.latest.Fits h.form) (none : h.latest.pivot = none) :
    Checked.advance h tolerance = some (h.advance tolerance) := by
  have evaluated := fits.of_bare h.latest.bare_evaluate.symm
  unfold Checked.advance History.advance
  rw [fits.checked_evaluate]
  simp only [Option.bind_eq_bind, Option.bind_some, evaluated.regular.checked_selectPivot]
  cases chosen : h.latest.evaluate.selectPivot tolerance with
  | mk u choice =>
    have current : u.Fits h.form := fits.of_bare (Tableau.bare_of_selected chosen).symm
    have column := fits.pivotInside_of_selected none chosen
    cases choice with
    | error e => rfl
    | ok choice =>
      cases choice with
      | optimal | unbounded => rfl
      | pivot p =>
        simp only [current.checked_pivoted column, Option.bind_some]
        cases made : u.pivoted h.form.symbols with
        | error e => rfl
        | ok next =>
          obtain ⟨q, _, recorded, _⟩ := Tableau.pivoted_ok made
          have fitsNext := current.pivoted recorded (column q recorded) made
          by_cases stuck : next.iteration ≤ u.iteration
          · simp only [stuck, if_true]
            rfl
          · simp only [stuck, if_false, fitsNext.checked_unitBasisViolation?, Option.bind_some]
            cases next.unitBasisViolation? tolerance <;> rfl

end Simplex
