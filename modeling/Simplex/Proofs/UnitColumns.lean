import Simplex.Proofs.Shape
import Simplex.Proofs.Undefined

/-!
Unit columns under rounding. The first tableau has distinct bases with exact unit columns. A basic
column has a relative cost that is zero or undefined, so it never enters; hence pivoting keeps the
bases distinct and every basis column a unit column, as far as its entries are defined, and exactly
so where the tableau before has finite coefficients only.
-/
namespace Simplex

open Scalar (Agrees UnitLaws)

variable {α : Type} [Scalar α]

/-- The entry of the row number `index` in the unit column of the row number `own`. -/
def unitEntry (own index : Nat) : α := if index = own then 1 else 0

@[simp] theorem unitEntry_self (own : Nat) : (unitEntry own own : α) = 1 := if_pos rfl

theorem unitEntry_of_ne {own index : Nat} (other : index ≠ own) :
    (unitEntry own index : α) = 0 := if_neg other

theorem Symbol.index_inj {s u : Symbol} : s.index = u.index ↔ s = u := by
  constructor
  · intro same
    cases s; cases u
    exact congrArg Symbol.mk same
  · rintro rfl; rfl

/-! ### Entries after a pivot -/

namespace Tableau

theorem coefficient_normalizedRow_self {t : Tableau α} {symbols : SymbolTable} {p : Pivot α}
    {source : Row α} (inside : p.column.index < source.coefficients.length) :
    (t.normalizedRow symbols p source).coefficient p.column = 1 := by
  simp [Row.coefficient, normalizedRow, inside]

theorem coefficient_normalizedRow_of_ne {t : Tableau α} {symbols : SymbolTable} {p : Pivot α}
    {source : Row α} {s : Symbol} (inside : s.index < source.coefficients.length)
    (other : s ≠ p.column) :
    (t.normalizedRow symbols p source).coefficient s = source.coefficient s / p.element := by
  have apart : p.column.index ≠ s.index := fun same => other (Symbol.index_inj.mp same).symm
  simp [Row.coefficient, normalizedRow, apart, inside]

theorem coefficient_eliminatedRow_self {p : Pivot α} {normalized r : Row α}
    (inside : p.column.index < r.coefficients.length)
    (wide : normalized.coefficients.length = r.coefficients.length) :
    (eliminatedRow p normalized r).coefficient p.column = 0 := by
  simp [Row.coefficient, eliminatedRow, inside, wide]

theorem coefficient_eliminatedRow_of_ne {p : Pivot α} {normalized r : Row α} {s : Symbol}
    (inside : s.index < r.coefficients.length)
    (wide : normalized.coefficients.length = r.coefficients.length) (other : s ≠ p.column) :
    (eliminatedRow p normalized r).coefficient s =
      r.coefficient s - normalized.coefficient s * r.coefficient p.column := by
  have apart : p.column.index ≠ s.index := fun same => other (Symbol.index_inj.mp same).symm
  simp [Row.coefficient, eliminatedRow, apart, inside, wide]

/-! ### Bases -/

/-- The columns of the basis are exact unit columns. -/
def ExactUnits (t : Tableau α) : Prop :=
  ∀ r ∈ t.rows, ∀ o ∈ t.rows, (o.coefficient r.basis == unitEntry r.index o.index) = true

/-- No coefficient is infinite or undefined. -/
def FiniteCoefficients (t : Tableau α) : Prop :=
  ∀ r ∈ t.rows, ∀ x ∈ r.coefficients, Scalar.isFinite x = true

instance (t : Tableau α) : Decidable t.FiniteCoefficients :=
  inferInstanceAs (Decidable (∀ r ∈ t.rows, ∀ x ∈ r.coefficients, Scalar.isFinite x = true))

/-- A tableau of the standard form's shape with distinct bases, whose columns are unit columns as far
    as their entries are defined. -/
structure Based (form : StandardForm α) (t : Tableau α) : Prop extends Fits form t where
  distinct : ∀ r ∈ t.rows, ∀ o ∈ t.rows, o.basis = r.basis → o = r
  unit : ∀ r ∈ t.rows, ∀ o ∈ t.rows, Agrees (o.coefficient r.basis) (unitEntry r.index o.index)

/-- The recorded pivot: a row, a column outside of the basis, and an element to divide by. -/
structure Turns (form : StandardForm α) (t : Tableau α) (p : Pivot α) (source : Row α) : Prop where
  recorded : t.pivot = some p
  found : t.rows[p.row]? = some source
  column : p.column ∈ form.symbols.symbols
  fresh : ∀ r ∈ t.rows, r.basis ≠ p.column
  nonzero : (p.element == 0) = false
  finite : Scalar.isFinite p.element = true

variable {form : StandardForm α} {t u next : Tableau α}

theorem exists_same_of_bare (same : t.bare = u.bare) {r : Row α} (member : r ∈ u.rows) :
    ∃ o ∈ t.rows, o.index = r.index ∧ o.basis = r.basis ∧ o.coefficient = r.coefficient := by
  obtain ⟨o, listed, equal⟩ := exists_row_of_bare same member
  obtain ⟨index, basis, _, _, _, coefficients⟩ := Row.bare_inj.mp equal
  refine ⟨o, listed, index, basis, ?_⟩
  unfold Row.coefficient
  rw [coefficients]

theorem ExactUnits.of_bare (h : t.ExactUnits) (same : t.bare = u.bare) : u.ExactUnits := by
  intro r member o other
  obtain ⟨r', listed, index, basis, _⟩ := exists_same_of_bare same member
  obtain ⟨o', listed', index', _, coefficient⟩ := exists_same_of_bare same other
  rw [← index, ← index', ← basis, ← coefficient]
  exact h r' listed o' listed'

theorem Based.of_bare (h : t.Based form) (same : t.bare = u.bare) : u.Based form where
  toFits := h.toFits.of_bare same
  distinct := by
    intro r member o other equal
    obtain ⟨r', listed, index, basis, _⟩ := exists_same_of_bare same member
    obtain ⟨o', listed', index', basis', _⟩ := exists_same_of_bare same other
    have equal' := h.distinct r' listed o' listed' (by rw [basis, basis', equal])
    refine ((h.toFits.of_bare same).rowsNumbered.index_inj other member).mp ?_
    rw [← index, ← index', equal']
  unit := by
    intro r member o other
    obtain ⟨r', listed, index, basis, _⟩ := exists_same_of_bare same member
    obtain ⟨o', listed', index', _, coefficient⟩ := exists_same_of_bare same other
    rw [← index, ← index', ← basis, ← coefficient]
    exact h.unit r' listed o' listed'

theorem ColumnsInOrder.isEvaluated (h : t.ColumnsInOrder) : t.evaluate.isEvaluated = true := by
  have columns : t.columns.length = t.costs.length := by
    rw [h]
    simp
  simp [Tableau.isEvaluated, evaluate, columns]

theorem ColumnsInOrder.relativeCost_evaluate (h : t.ColumnsInOrder) {s : Symbol}
    (member : s ∈ t.columns) :
    t.evaluate.relativeCost s = Scalar.sum (t.rows.map fun r => r.basisCost * r.coefficient s) -
      t.costs.getD s.index 0 := by
  obtain ⟨column, inside⟩ := h.getElem?_index member
  unfold relativeCost evaluate
  simp [List.getElem?_zipWith, column, inside]

/-- A look for a pivot finds an answer. -/
theorem ColumnsInOrder.selectPivot_isOk (h : t.ColumnsInOrder) (tolerance : α) :
    ∃ u choice, t.evaluate.selectPivot tolerance = (u, .ok choice) := by
  unfold selectPivot
  rw [h.isEvaluated]
  simp only [Bool.not_true, Bool.false_eq_true, if_false]
  split
  · exact ⟨_, _, rfl⟩
  · split <;> exact ⟨_, _, rfl⟩

variable [UnitLaws α]

theorem zero_beq_unitEntry {own index : Nat} (other : index ≠ own) :
    ((0 : α) == unitEntry own index) = true := by
  rw [unitEntry_of_ne other]
  exact UnitLaws.zero_beq_zero

theorem unitEntry_beq_self (own index : Nat) :
    ((unitEntry own index : α) == unitEntry own index) = true := by
  unfold unitEntry
  split
  · exact UnitLaws.one_beq_one
  · exact UnitLaws.zero_beq_zero

/-- A column that two rows had as their basis would be one and zero in the same row. -/
theorem ExactUnits.basis_inj (units : t.ExactUnits) (numbered : t.RowsNumbered) :
    ∀ r ∈ t.rows, ∀ o ∈ t.rows, o.basis = r.basis → o = r := by
  intro r member o other same
  by_contra different
  have one := units o other o other
  have zero := units r member o other
  rw [same, unitEntry_self] at one
  rw [unitEntry_of_ne fun index => different ((numbered.index_inj other member).mp index),
    UnitLaws.beq_zero_of_beq_one one] at zero
  cases zero

/-! ### The first tableau -/

section Initial

variable {p : Problem α}

/-- The column of the basis that an equation starts with: a slack stands in no other equation, and
    an equation without a slack was searched for a unit column. -/
theorem initialEntry_beq (h : form.Represents p) {e d : StandardConstraint α} {i j : Nat}
    {taken : List Symbol} {s : Symbol} (own : form.constraints[i]? = some e)
    (other : form.constraints[j]? = some d)
    (found : initialBasis? form.symbols form.dense taken i e = some s) :
    ((form.symbols.row d.lhs).getD s.index 0 == unitEntry i j) = true := by
  have column := initialBasis?_mem found
  unfold initialBasis? at found
  split at found
  · rename_i slack
    have named := (form.symbols.symbol?_eq_some_iff.mp found).2
    rw [form.symbols.getD_row column, named, h.filter_slack own other slack]
    split
    · rename_i same
      subst same
      rw [unitEntry_self]
      exact UnitLaws.zero_add_beq UnitLaws.zero_beq_zero UnitLaws.one_beq_one
    · rename_i apart
      exact zero_beq_unitEntry apart
  · have accepted := List.find?_some found
    rw [Bool.and_eq_true] at accepted
    have unit := List.all_eq_true.mp accepted.2
    have listed : (form.symbols.row d.lhs, j) ∈ form.dense.zipIdx := by
      rw [List.mem_zipIdx_iff_getElem?]
      simp [StandardForm.dense, other]
    exact unit _ listed

theorem initial_exactUnits (h : form.Represents p) (made : initial form = .ok t) :
    t.ExactUnits := by
  obtain ⟨_, _, _, starts⟩ := initial_ok made
  intro r member o other
  obtain ⟨e, own, ⟨taken, found⟩, _⟩ := starts r member
  obtain ⟨d, equation, _, _, _, _, _, coefficients⟩ := starts o other
  unfold Row.coefficient
  rw [coefficients]
  exact initialEntry_beq h own equation found

theorem based_initial (h : form.Represents p) (made : initial form = .ok t) : t.Based form where
  toFits := initial_fits made
  distinct := (initial_exactUnits h made).basis_inj (initial_fits made).rowsNumbered
  unit := fun r member o other => .inl (initial_exactUnits h made r member o other)

end Initial

/-! ### The column that enters -/

namespace Based

variable (h : t.Based form) {tolerance : α}
include h

/-- A column of the basis costs nothing, as far as its cost is defined: the terms of the other rows
    are zero, and that of its own row is its cost. -/
theorem relativeCost_basis {r : Row α} (member : r ∈ t.rows) :
    Agrees (t.evaluate.relativeCost r.basis) 0 := by
  have own : Agrees (r.basisCost * r.coefficient r.basis) r.basisCost := by
    have one := h.unit r member r member
    rw [unitEntry_self] at one
    exact one.mul_one
  have others : ∀ o ∈ t.rows, o ≠ r → Agrees (o.basisCost * o.coefficient r.basis) 0 := by
    intro o other different
    have zero := h.unit r member o other
    have index : o.index ≠ r.index := fun same =>
      different ((h.rowsNumbered.index_inj other member).mp same)
    rw [unitEntry_of_ne index] at zero
    exact zero.mul_zero
  have total := Scalar.Agrees.sum_single h.rowsNumbered.rows_nodup member own others
  rw [h.columnsInOrder.relativeCost_evaluate (h.columns ▸ h.basis r member), h.costs,
    ← h.basisCost r member]
  exact total.sub_self

/-- The column that enters is none of the basis. -/
theorem entering_fresh (nonneg : ¬ tolerance < 0) {s : Symbol}
    (entering : t.evaluate.enteringColumn? tolerance = some s) :
    s ∈ form.symbols.symbols ∧ ∀ r ∈ t.rows, r.basis ≠ s := by
  have spec := enteringColumn?_spec h.columnsInOrder.isEvaluated tolerance
  rw [entering] at spec
  obtain ⟨member, cheap, _⟩ := spec
  refine ⟨h.columns ▸ member, ?_⟩
  rintro r row rfl
  exact UnitLaws.not_lt_neg (h.relativeCost_basis row) nonneg cheap

/-- The pivot that is found can be applied: its element is above the tolerance, so it is not zero,
    and its ratio is positive, so it is finite. -/
theorem turns (nonneg : ¬ tolerance < 0) {p : Pivot α}
    (chosen : t.evaluate.selectPivot tolerance = (u, .ok (.pivot p))) :
    ∃ source, u.Turns form p source := by
  have same := bare_of_selected chosen
  have based : u.Based form := h.of_bare same.symm
  obtain ⟨_, entering, leaving, least, shape, left⟩ := selectPivot_ok chosen
  obtain ⟨column, fresh⟩ := h.entering_fresh nonneg entering
  have spec := leavingRow?_spec (t.evaluate.withRatios p.column tolerance)
  rw [least] at spec
  obtain ⟨listed, ratio, recorded, positive, _⟩ := spec
  have element : leaving.coefficient p.column = p.element := by rw [shape]
  have rated : leaving.ratio = if tolerance < Scalar.magnitude p.element
      then some (leaving.rhs / p.element) else none := by
    obtain ⟨o, _, rfl⟩ := List.mem_map.mp listed
    rw [← element]
    rfl
  rw [recorded] at rated
  split at rated
  · rename_i large
    have row : { leaving with isPivotRow := leaving.index == leaving.index } ∈ u.rows := by
      rw [left]
      exact List.mem_map_of_mem listed
    refine ⟨{ leaving with isPivotRow := leaving.index == leaving.index }, ?_, ?_, column, ?_, ?_, ?_⟩
    · rw [left]
    · have place := based.rowsNumbered.getElem?_index row
      rw [shape]
      exact place
    · intro r member
      obtain ⟨o, other, _, basis, _⟩ := exists_same_of_bare same.symm member
      rw [← basis]
      exact fresh o other
    · -- an element that is zero does not exceed the tolerance
      by_contra zero
      rw [Bool.not_eq_false] at zero
      exact UnitLaws.not_lt_magnitude (.inl zero) nonneg large
    · cases Option.some.inj rated
      exact UnitLaws.isFinite_of_div_pos positive
  · cases rated

/-- No basis column differs from a unit column by more than the tolerance. -/
theorem unitBasisViolation?_eq_none (nonneg : ¬ tolerance < 0) :
    t.unitBasisViolation? tolerance = none := by
  unfold unitBasisViolation?
  rw [List.findIdx?_eq_none_iff]
  intro r member
  rw [List.any_eq_false]
  intro o other
  have near := UnitLaws.not_lt_magnitude (h.unit r member o other).sub_self nonneg
  exact fun far => near (of_decide_eq_true far)

end Based

/-! ### Pivoting -/

/-- What a row becomes by a pivot: its entry in the pivot column is forced, the others are those of a
    Gauss-Jordan step. -/
structure Becomes (form : StandardForm α) (p : Pivot α) (source before after : Row α) : Prop where
  index : after.index = before.index
  basis : after.basis = if before.index = p.row then p.column else before.basis
  forced : after.coefficient p.column = unitEntry p.row before.index
  others : ∀ s ∈ form.symbols.symbols, s ≠ p.column → after.coefficient s =
    if before.index = p.row then source.coefficient s / p.element
    else before.coefficient s - source.coefficient s / p.element * before.coefficient p.column

namespace Turns

variable {p : Pivot α} {source : Row α}

section

omit [UnitLaws α]

theorem pivoted_isOk (h : t.Turns form p source) :
    ∃ next, t.pivoted form.symbols = .ok next := by
  unfold pivoted
  rw [h.recorded]
  simp [h.found, h.nonzero, h.finite]

variable (fits : t.Fits form) (h : t.Turns form p source)
include fits h

theorem normalizedRow_becomes :
    Becomes form p source source (t.normalizedRow form.symbols p source) := by
  have own : source.index = p.row := fits.rowsNumbered.index_of_getElem? h.found
  have inside : ∀ s ∈ form.symbols.symbols, s.index < source.coefficients.length := by
    intro s member
    rw [fits.wide source (List.mem_of_getElem? h.found)]
    exact form.symbols.mem_symbols.mp member
  refine ⟨own.symm, (if_pos own).symm, ?_, fun s member other => ?_⟩
  · rw [own, unitEntry_self]
    exact coefficient_normalizedRow_self (inside p.column h.column)
  · rw [if_pos own]
    exact coefficient_normalizedRow_of_ne (inside s member) other

theorem eliminatedRow_becomes {r : Row α} (member : r ∈ t.rows) (other : r.index ≠ p.row) :
    Becomes form p source r (eliminatedRow p (t.normalizedRow form.symbols p source) r) := by
  have wideSource := fits.wide source (List.mem_of_getElem? h.found)
  have wide : (t.normalizedRow form.symbols p source).coefficients.length =
      r.coefficients.length := by
    simp [normalizedRow, wideSource, fits.wide r member]
  have inside : ∀ s ∈ form.symbols.symbols, s.index < r.coefficients.length := by
    intro s column
    rw [fits.wide r member]
    exact form.symbols.mem_symbols.mp column
  refine ⟨rfl, (if_neg other).symm, ?_, fun s column apart => ?_⟩
  · rw [unitEntry_of_ne other]
    exact coefficient_eliminatedRow_self (inside p.column h.column) wide
  · have bound : s.index < source.coefficients.length := by
      rw [wideSource]
      exact form.symbols.mem_symbols.mp column
    rw [if_neg other, coefficient_eliminatedRow_of_ne (inside s column) wide apart,
      coefficient_normalizedRow_of_ne bound apart]

variable (made : t.pivoted form.symbols = .ok next)
include made

/-- The next tableau has the next number, and every row of it comes from one before. -/
theorem next_rows : next.iteration = t.iteration + 1 ∧
    ∀ o ∈ next.rows, ∃ r ∈ t.rows, Becomes form p source r o := by
  obtain ⟨p', source', recorded, found, _, _, rfl⟩ := pivoted_ok made
  cases Option.some.inj (h.recorded.symm.trans recorded)
  cases Option.some.inj (h.found.symm.trans found)
  refine ⟨rfl, List.forall_mem_map.mpr fun r member => ?_⟩
  split
  · exact ⟨source, List.mem_of_getElem? h.found, h.normalizedRow_becomes fits⟩
  · rename_i other
    exact ⟨r, member, h.eliminatedRow_becomes fits member other⟩

theorem distinct_next (distinct : ∀ r ∈ t.rows, ∀ o ∈ t.rows, o.basis = r.basis → o = r) :
    ∀ r ∈ next.rows, ∀ o ∈ next.rows, o.basis = r.basis → o = r := by
  have fitsNext := fits.pivoted h.recorded h.column made
  intro r member o other same
  obtain ⟨before, listed, becomes⟩ := (h.next_rows fits made).2 r member
  obtain ⟨before', listed', becomes'⟩ := (h.next_rows fits made).2 o other
  refine (fitsNext.rowsNumbered.index_inj other member).mp ?_
  rw [becomes.index, becomes'.index]
  rw [becomes.basis, becomes'.basis] at same
  split at same
  · rename_i own'
    split at same
    · rename_i own
      exact own'.trans own.symm
    · exact absurd same.symm (h.fresh before listed)
  · split at same
    · exact absurd same (h.fresh before' listed')
    · rw [distinct before listed before' listed' same]

/-- A pivot keeps the entries of the basis related to the unit columns, for a relation that dividing
    the pivot row and taking it from the others keep: the pivot row relates to zero in the columns
    of the other rows. -/
theorem related_next {R : α → α → Prop}
    (units : ∀ r ∈ t.rows, ∀ o ∈ t.rows, R (o.coefficient r.basis) (unitEntry r.index o.index))
    (forced : ∀ own index, R (unitEntry own index) (unitEntry own index))
    (divided : ∀ z, R z 0 → R (z / p.element) 0)
    (reduced : ∀ r ∈ t.rows, ∀ x d z, R x d → R z 0 → R (x - z * r.coefficient p.column) d) :
    ∀ r ∈ next.rows, ∀ o ∈ next.rows, R (o.coefficient r.basis) (unitEntry r.index o.index) := by
  intro r member o other
  obtain ⟨before, listed, becomes⟩ := (h.next_rows fits made).2 r member
  obtain ⟨before', listed', becomes'⟩ := (h.next_rows fits made).2 o other
  rw [becomes.index, becomes'.index, becomes.basis]
  by_cases own : before.index = p.row
  · rw [if_pos own, becomes'.forced, own]
    exact forced _ _
  · -- an old basis column is zero in the pivot row, so the step changes nothing there
    have zero : R (source.coefficient before.basis / p.element) 0 := by
      have entry := units before listed source (List.mem_of_getElem? h.found)
      rw [fits.rowsNumbered.index_of_getElem? h.found, unitEntry_of_ne (Ne.symm own)] at entry
      exact divided _ entry
    rw [if_neg own, becomes'.others _ (fits.basis before listed) (h.fresh before listed)]
    split
    · rename_i own'
      rw [own', unitEntry_of_ne (Ne.symm own)]
      exact zero
    · exact reduced before' listed' _ _ _ (units before listed before' listed') zero

end

/-- Pivoting keeps the bases distinct and their columns unit columns. -/
theorem based_next (h : t.Turns form p source) (based : t.Based form)
    (made : t.pivoted form.symbols = .ok next) : next.Based form where
  toFits := based.toFits.pivoted h.recorded h.column made
  distinct := h.distinct_next based.toFits made based.distinct
  unit := h.related_next based.toFits made based.unit
    (fun own index => .inl (unitEntry_beq_self own index))
    (fun _ zero => zero.zero_div h.nonzero h.finite)
    (fun _ _ _ _ _ equal zero => equal.sub_zero zero.zero_mul)

/-- Where no coefficient is infinite or undefined, pivoting keeps exact unit columns exact. -/
theorem exactUnits_next (h : t.Turns form p source) (fits : t.Fits form) (exact : t.ExactUnits)
    (finite : t.FiniteCoefficients) (made : t.pivoted form.symbols = .ok next) :
    next.ExactUnits := by
  have finiteEntry : ∀ r ∈ t.rows, Scalar.isFinite (r.coefficient p.column) = true := by
    intro r member
    have inside : p.column.index < r.coefficients.length := by
      rw [fits.wide r member]
      exact form.symbols.mem_symbols.mp h.column
    have entry := finite r member _ (List.getElem_mem inside)
    simpa [Row.coefficient, inside] using entry
  refine h.related_next (R := fun x d => (x == d) = true) fits made exact unitEntry_beq_self ?_ ?_
  · exact fun _ zero => UnitLaws.zero_div_beq zero h.nonzero h.finite
  · exact fun r member _ _ _ equal zero =>
      UnitLaws.sub_zero_beq equal (UnitLaws.zero_mul_beq zero (finiteEntry r member))

end Turns

end Tableau

end Simplex
