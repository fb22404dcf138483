import Simplex.Proofs.Meaning
import Simplex.Proofs.UnitColumns

/-!
The equations of a tableau on the rationals. A Gauss-Jordan step is one formula for all rows, so it
keeps the solutions of the equations and the unit columns of the basis; hence every tableau of a run
is canonical: it has unit columns and the solutions of the standard form.
-/
namespace Simplex

/-- The left side of the equation of a row at values of the columns. -/
def Row.dot (r : Row Rat) (columns : List Symbol) (y : Symbol → Rat) : Rat :=
  (columns.map fun s => r.coefficient s * y s).sum

namespace Tableau

/-- The values of the columns satisfy the equation of every row. -/
def Satisfied (t : Tableau Rat) (y : Symbol → Rat) : Prop :=
  ∀ r ∈ t.rows, r.dot t.columns y = r.rhs

/-- The basis column of each row is one in that row and zero in every other. -/
def UnitBasis (t : Tableau Rat) : Prop :=
  ∀ r ∈ t.rows, ∀ o ∈ t.rows, o.coefficient r.basis = if o.index = r.index then 1 else 0

theorem unitBasis_iff {t : Tableau Rat} : t.UnitBasis ↔ t.ExactUnits :=
  forall₂_congr fun _ _ => forall₂_congr fun _ _ => Scalar.beq_rat.symm

/-- A tableau of the standard form's shape, with unit basis columns and the same solutions. -/
structure Canonical (form : StandardForm Rat) (t : Tableau Rat) : Prop extends Fits form t where
  unit : t.UnitBasis
  equivalent : ∀ w : String → Rat,
    t.Satisfied (fun s => w (form.symbols.name s)) ↔ form.Satisfied w

/-- A tableau that can be read without a standard form: its columns and rows are in order, and the
    basis is one of unit columns, whose costs the rows have. -/
structure Standing (t : Tableau Rat) : Prop where
  columns : t.ColumnsInOrder
  numbered : t.RowsNumbered
  basis : ∀ r ∈ t.rows, r.basis ∈ t.columns
  basisCost : ∀ r ∈ t.rows, r.basisCost = t.costs.getD r.basis.index 0
  unit : t.UnitBasis

theorem Canonical.standing {form : StandardForm Rat} {t : Tableau Rat} (h : t.Canonical form) :
    t.Standing where
  columns := h.columnsInOrder
  numbered := h.rowsNumbered
  basis r member := h.columns ▸ h.basis r member
  basisCost r member := by rw [h.basisCost r member, h.costs]
  unit := h.unit

/-- The recorded pivot: a row, a column and their entry, which is not zero. -/
structure Pivots (t : Tableau Rat) (p : Pivot Rat) (source : Row Rat) : Prop where
  recorded : t.pivot = some p
  found : t.rows[p.row]? = some source
  column : p.column ∈ t.columns
  element : source.coefficient p.column = p.element
  ne_zero : p.element ≠ 0

/-! ### Gauss-Jordan steps -/

theorem coefficient_normalizedRow {t : Tableau Rat} {symbols : SymbolTable} {p : Pivot Rat}
    {source : Row Rat} (inside : p.column.index < source.coefficients.length)
    (element : source.coefficient p.column = p.element) (ne_zero : p.element ≠ 0) (s : Symbol) :
    (t.normalizedRow symbols p source).coefficient s = source.coefficient s / p.element := by
  unfold Row.coefficient at element ⊢
  unfold normalizedRow
  by_cases same : p.column.index = s.index
  · rw [same] at element inside ⊢
    rw [element, div_self ne_zero]
    simp [inside]
  · simp only [List.getD_eq_getElem?_getD, List.getElem?_set_ne same, List.getElem?_map]
    cases source.coefficients[s.index]? with
    | none => simp
    | some x => rfl

theorem coefficient_eliminatedRow {p : Pivot Rat} {normalized r : Row Rat}
    (inside : p.column.index < r.coefficients.length)
    (wide : normalized.coefficients.length = r.coefficients.length)
    (one : normalized.coefficient p.column = 1) (s : Symbol) :
    (eliminatedRow p normalized r).coefficient s =
      r.coefficient s - normalized.coefficient s * r.coefficient p.column := by
  unfold Row.coefficient at one ⊢
  unfold eliminatedRow Row.coefficient
  by_cases same : p.column.index = s.index
  · rw [same] at one inside ⊢
    rw [one, one_mul, sub_self]
    simp [inside, wide]
  · simp only [List.getD_eq_getElem?_getD, List.getElem?_set_ne same, List.getElem?_zipWith]
    by_cases bound : s.index < r.coefficients.length
    · have bound' : s.index < normalized.coefficients.length := wide ▸ bound
      simp [bound, bound']
    · have bound' : ¬ s.index < normalized.coefficients.length := wide ▸ bound
      simp [bound, bound']

/-- How often the divided pivot row is taken from a row: the entry in the pivot column, one less in
    the pivot row itself. -/
def factor (p : Pivot Rat) (r : Row Rat) : Rat :=
  r.coefficient p.column - if r.index = p.row then 1 else 0

/-- The row of the next tableau that a row becomes. -/
def nextRow (t : Tableau Rat) (symbols : SymbolTable) (p : Pivot Rat) (source r : Row Rat) :
    Row Rat :=
  if r.index = p.row then t.normalizedRow symbols p source
  else eliminatedRow p (t.normalizedRow symbols p source) r

section NextRow

variable (t : Tableau Rat) (symbols : SymbolTable) (p : Pivot Rat) (source r : Row Rat)

theorem basis_nextRow : (t.nextRow symbols p source r).basis =
    if r.index = p.row then p.column else r.basis := by
  unfold nextRow
  split <;> rfl

theorem index_nextRow : (t.nextRow symbols p source r).index = r.index := by
  unfold nextRow
  split
  · rename_i own; exact own.symm
  · rfl

theorem basisCost_nextRow : (t.nextRow symbols p source r).basisCost =
    if r.index = p.row then t.costs.getD p.column.index 0 else r.basisCost := by
  unfold nextRow
  split <;> rfl

end NextRow

namespace Pivots

variable {form : StandardForm Rat} {t next : Tableau Rat} {p : Pivot Rat} {source : Row Rat}

theorem source_mem (h : t.Pivots p source) : source ∈ t.rows := List.mem_of_getElem? h.found

theorem exists_next (h : t.Pivots p source) (symbols : SymbolTable) :
    ∃ next, t.pivoted symbols = .ok next := by
  have usable : (p.element == 0) = false := beq_eq_false_iff_ne.mpr h.ne_zero
  unfold pivoted
  rw [h.recorded]
  simp only [h.found, usable]
  exact ⟨_, rfl⟩

theorem next_eq (h : t.Pivots p source) {symbols : SymbolTable}
    (made : t.pivoted symbols = .ok next) :
    next.columns = t.columns ∧ next.rows = t.rows.map (t.nextRow symbols p source) := by
  obtain ⟨p', source', recorded, found, _, _, rfl⟩ := pivoted_ok made
  cases Option.some.inj (h.recorded.symm.trans recorded)
  cases Option.some.inj (h.found.symm.trans found)
  exact ⟨rfl, rfl⟩

section Numbered

variable (numbered : t.RowsNumbered) (h : t.Pivots p source)
include numbered h

theorem source_index : source.index = p.row := numbered.index_of_getElem? h.found

theorem row_eq_source {r : Row Rat} (member : r ∈ t.rows) (own : r.index = p.row) : r = source :=
  (numbered.index_inj member h.source_mem).mp (own.trans (h.source_index numbered).symm)

theorem rhs_nextRow (symbols : SymbolTable) {r : Row Rat} (member : r ∈ t.rows) :
    (t.nextRow symbols p source r).rhs = r.rhs - source.rhs / p.element * factor p r := by
  unfold nextRow factor
  by_cases own : r.index = p.row
  · have same := h.row_eq_source numbered member own
    subst same
    have ne_zero := h.ne_zero
    rw [if_pos own, if_pos own, h.element]
    show r.rhs / p.element = _
    field_simp
    ring
  · rw [if_neg own, if_neg own, sub_zero]
    rfl

end Numbered

variable (fits : t.Fits form) (h : t.Pivots p source)
include fits h

theorem inside {r : Row Rat} (member : r ∈ t.rows) : p.column.index < r.coefficients.length := by
  rw [fits.wide r member]
  exact form.symbols.mem_symbols.mp (fits.columns ▸ h.column)

/-- Every row, the pivot row too, loses the divided pivot row as often as its factor says. -/
theorem coefficient_nextRow {r : Row Rat} (member : r ∈ t.rows) (s : Symbol) :
    (t.nextRow form.symbols p source r).coefficient s =
      r.coefficient s - source.coefficient s / p.element * factor p r := by
  have normalized : ∀ c, (t.normalizedRow form.symbols p source).coefficient c =
      source.coefficient c / p.element :=
    coefficient_normalizedRow (h.inside fits h.source_mem) h.element h.ne_zero
  unfold nextRow factor
  by_cases own : r.index = p.row
  · have same := h.row_eq_source fits.rowsNumbered member own
    subst same
    have ne_zero := h.ne_zero
    rw [if_pos own, if_pos own, normalized, h.element]
    field_simp
    ring
  · have one : (t.normalizedRow form.symbols p source).coefficient p.column = 1 := by
      rw [normalized, h.element, div_self h.ne_zero]
    have wide : (t.normalizedRow form.symbols p source).coefficients.length =
        r.coefficients.length := by
      simp [normalizedRow, fits.wide r member, fits.wide source h.source_mem]
    rw [if_neg own, if_neg own, coefficient_eliminatedRow (h.inside fits member) wide one,
      normalized, sub_zero]

theorem dot_nextRow {r : Row Rat} (member : r ∈ t.rows) (columns : List Symbol)
    (y : Symbol → Rat) :
    (t.nextRow form.symbols p source r).dot columns y =
      r.dot columns y - source.dot columns y / p.element * factor p r := by
  unfold Row.dot
  induction columns with
  | nil => simp
  | cons s rest ih =>
    rw [List.map_cons, List.sum_cons, ih, h.coefficient_nextRow fits member, List.map_cons,
      List.sum_cons, List.map_cons, List.sum_cons]
    ring

theorem satisfied_iff (made : t.pivoted form.symbols = .ok next) (y : Symbol → Rat) :
    next.Satisfied y ↔ t.Satisfied y := by
  obtain ⟨columns, rows⟩ := h.next_eq made
  unfold Satisfied
  rw [columns, rows, List.forall_mem_map]
  constructor
  · intro satisfied
    have scaled : source.dot t.columns y = source.rhs := by
      have own := satisfied source h.source_mem
      rw [h.dot_nextRow fits h.source_mem, h.rhs_nextRow fits.rowsNumbered _ h.source_mem, factor,
        if_pos (h.source_index fits.rowsNumbered), h.element] at own
      have ne_zero := h.ne_zero
      field_simp at own
      linarith
    intro r member
    have own := satisfied r member
    rw [h.dot_nextRow fits member, h.rhs_nextRow fits.rowsNumbered _ member, scaled] at own
    linarith
  · intro satisfied r member
    rw [h.dot_nextRow fits member, h.rhs_nextRow fits.rowsNumbered _ member, satisfied r member,
      satisfied source h.source_mem]

/-- The basis of the next tableau has unit columns: the column that enters by its forced entries,
    every other because the pivot row is zero there. -/
theorem unitBasis_next (made : t.pivoted form.symbols = .ok next) (unit : t.UnitBasis) :
    next.UnitBasis := by
  obtain ⟨_, rows⟩ := h.next_eq made
  unfold UnitBasis
  rw [rows, List.forall_mem_map]
  intro r member
  rw [List.forall_mem_map]
  intro o other
  rw [h.coefficient_nextRow fits other, basis_nextRow, index_nextRow, index_nextRow]
  by_cases own : r.index = p.row
  · rw [if_pos own, own, h.element, div_self h.ne_zero, one_mul, factor]
    ring
  · have zero : source.coefficient r.basis = 0 := by
      rw [unit r member source h.source_mem, h.source_index fits.rowsNumbered,
        if_neg (Ne.symm own)]
    rw [if_neg own, zero, zero_div, zero_mul, sub_zero]
    exact unit r member o other

theorem canonical_next (canonical : t.Canonical form)
    (made : t.pivoted form.symbols = .ok next) : next.Canonical form where
  toFits := fits.pivoted h.recorded (fits.columns ▸ h.column) made
  unit := h.unitBasis_next fits made canonical.unit
  equivalent w := (h.satisfied_iff fits made _).trans (canonical.equivalent w)

end Pivots

/-! ### Canonical tableaux -/

theorem satisfied_of_bare {t u : Tableau Rat} (same : t.bare = u.bare) {y : Symbol → Rat}
    (satisfied : t.Satisfied y) : u.Satisfied y := by
  intro r member
  obtain ⟨o, listed, equal⟩ := exists_row_of_bare same member
  obtain ⟨_, _, _, _, rhs, coefficients⟩ := Row.bare_inj.mp equal
  have holds := satisfied o listed
  rw [rhs, (bare_inj.mp same).2.1] at holds
  rw [← holds]
  unfold Row.dot Row.coefficient
  rw [coefficients]

theorem Canonical.of_bare {form : StandardForm Rat} {t u : Tableau Rat} (h : t.Canonical form)
    (same : t.bare = u.bare) : u.Canonical form where
  toFits := h.toFits.of_bare same
  unit := unitBasis_iff.mpr ((unitBasis_iff.mp h.unit).of_bare same)
  equivalent w :=
    ⟨fun satisfied => (h.equivalent w).mp (satisfied_of_bare same.symm satisfied),
      fun satisfied => satisfied_of_bare same ((h.equivalent w).mpr satisfied)⟩

section Initial

variable {p : Problem Rat} {form : StandardForm Rat} {t : Tableau Rat}

theorem initial_unitBasis (h : form.Represents p) (made : initial form = .ok t) : t.UnitBasis :=
  unitBasis_iff.mpr (initial_exactUnits h made)

theorem initial_dot (h : form.Represents p) (made : initial form = .ok t) {r : Row Rat}
    (member : r ∈ t.rows) :
    ∃ e, form.constraints[r.index]? = some e ∧ r.rhs = e.rhs ∧
      ∀ w : String → Rat, r.dot t.columns (fun s => w (form.symbols.name s)) = e.lhs.value w := by
  obtain ⟨columns, _, _, starts⟩ := initial_ok made
  obtain ⟨e, equation, _, _, _, _, rhs, coefficients⟩ := starts r member
  refine ⟨e, equation, rhs, fun w => ?_⟩
  unfold Row.dot Row.coefficient
  rw [coefficients, columns]
  exact form.symbols.row_value w (h.equation_known (List.mem_of_getElem? equation))

theorem canonical_initial (h : form.Represents p) (made : initial form = .ok t) :
    t.Canonical form := by
  have fits := initial_fits made
  refine ⟨fits, initial_unitBasis h made, fun w => ⟨?_, ?_⟩⟩
  · intro satisfied e equation
    obtain ⟨i, inside, rfl⟩ := List.mem_iff_getElem.mp equation
    have inside' : i < t.rows.length := fits.length_rows ▸ inside
    have member := List.getElem_mem inside'
    obtain ⟨d, same, rhs, value⟩ := initial_dot h made member
    rw [fits.rowsNumbered.index_of_getElem? (List.getElem?_eq_getElem inside'),
      List.getElem?_eq_getElem inside] at same
    cases Option.some.inj same
    rw [← value w, ← rhs]
    exact satisfied _ member
  · intro satisfied r member
    obtain ⟨e, equation, rhs, value⟩ := initial_dot h made member
    rw [value w, rhs]
    exact satisfied e (List.mem_of_getElem? equation)

end Initial

end Tableau

end Simplex
