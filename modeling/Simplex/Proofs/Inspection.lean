import Simplex.Proofs.Costs

/-!
What looking for a pivot finds on a canonical tableau, one lemma for each of its three answers, and
how a pivot changes the right-hand sides and the value: the value grows by the price of the column
that enters, taken as often as the ratio of the row that leaves says.
-/
namespace Simplex.Tableau

/-- The rows record their ratios for a column, none where the entry is within the tolerance. -/
def Rated (t : Tableau Rat) (s : Symbol) (tolerance : Rat) : Prop :=
  ∀ r ∈ t.rows, r.ratio =
    if tolerance < |r.coefficient s| then some (r.rhs / r.coefficient s) else none

/-- A column enters: its price is below minus the tolerance and the rows are rated for it. -/
structure Enters (t : Tableau Rat) (s : Symbol) (tolerance : Rat) : Prop where
  member : s ∈ t.columns
  chosen : t.enteringColumn? tolerance = some s
  cheap : t.price s < -tolerance
  rated : t.Rated s tolerance

variable {t u next : Tableau Rat} {tolerance : Rat}

theorem ratio_withRatio (r : Row Rat) (s : Symbol) : (Row.withRatio r s tolerance).ratio =
    if tolerance < |r.coefficient s| then some (r.rhs / r.coefficient s) else none := by
  show (if tolerance < Scalar.magnitude (r.coefficient s) then _ else none) = _
  rw [Scalar.magnitude_eq]

theorem enteringColumn?_congr (columns : u.columns = t.columns)
    (costs : u.relativeCosts = t.relativeCosts) :
    u.enteringColumn? tolerance = t.enteringColumn? tolerance := by
  unfold enteringColumn? isEvaluated
  rw [columns, costs]

private theorem entering_spec (evaluated : t.isEvaluated = true) (priced : t.Priced) {s : Symbol}
    (entering : t.enteringColumn? tolerance = some s) :
    s ∈ t.columns ∧ t.price s < -tolerance := by
  have spec := enteringColumn?_spec evaluated tolerance
  rw [entering] at spec
  exact ⟨spec.1, priced s spec.1 ▸ spec.2.1⟩

/-- At an optimum no price is below minus the tolerance. -/
theorem optimal_ok (ordered : t.ColumnsInOrder)
    (chosen : t.evaluate.selectPivot tolerance = (u, .ok .optimal)) :
    ∀ s ∈ u.columns, -tolerance ≤ u.price s := by
  obtain ⟨evaluated, entering, rfl⟩ := selectPivot_ok chosen
  have spec := enteringColumn?_spec evaluated tolerance
  rw [entering] at spec
  intro s member
  rw [← ordered.priced_evaluate s member]
  exact not_lt.mp (spec s member)

/-- A column is called unbounded if it enters and no row has a positive ratio. -/
theorem unbounded_ok (ordered : t.ColumnsInOrder) {s : Symbol}
    (chosen : t.evaluate.selectPivot tolerance = (u, .ok (.unbounded s))) :
    u.Enters s tolerance ∧ ∀ r ∈ u.rows, ∀ q, r.ratio = some q → q ≤ 0 := by
  have same := bare_of_selected chosen
  obtain ⟨evaluated, entering, none, rfl⟩ := selectPivot_ok chosen
  obtain ⟨member, cheap⟩ := entering_spec evaluated ordered.priced_evaluate entering
  refine ⟨⟨member, ?_, ?_, ?_⟩, ?_⟩
  · rw [← entering]
    exact enteringColumn?_congr rfl rfl
  · rw [price_of_bare same]
    exact cheap
  · refine List.forall_mem_map.mpr fun r _ => ?_
    rw [ratio_withRatio]
    rfl
  · have spec := leavingRow?_spec (t.evaluate.withRatios s tolerance)
    rw [none] at spec
    intro r listed q ratio
    by_contra positive
    exact spec r listed q ⟨ratio, not_le.mp positive, rfl⟩

/-- The row of a pivot that is found has the least positive ratio. -/
private theorem leaving_ok (numbered : t.RowsNumbered) {p : Pivot Rat}
    (chosen : t.evaluate.selectPivot tolerance = (u, .ok (.pivot p))) :
    u.Rated p.column tolerance ∧ u.pivot = some p ∧ ∃ source, u.rows[p.row]? = some source ∧
      source.coefficient p.column = p.element ∧ ∃ q, source.ratio = some q ∧ 0 < q ∧
        ∀ r ∈ u.rows, ∀ x, r.ratio = some x → 0 < x → q ≤ x := by
  have same := bare_of_selected chosen
  obtain ⟨_, _, leaving, least, shape, left⟩ := selectPivot_ok chosen
  have spec := leavingRow?_spec (t.evaluate.withRatios p.column tolerance)
  rw [least] at spec
  obtain ⟨listed, q, ratio, positive, lowest⟩ := spec
  have rows : u.rows = (t.evaluate.withRatios p.column tolerance).map fun r =>
      { r with isPivotRow := r.index == leaving.index } := by rw [left]
  have rated : u.Rated p.column tolerance := by
    intro r row
    rw [rows] at row
    obtain ⟨_, marked, rfl⟩ := List.mem_map.mp row
    obtain ⟨o, _, rfl⟩ := List.mem_map.mp marked
    exact ratio_withRatio o p.column
  let source : Row Rat := { leaving with isPivotRow := leaving.index == leaving.index }
  have row : source ∈ u.rows := rows ▸ List.mem_map_of_mem listed
  have index : source.index = p.row := by rw [shape]
  refine ⟨rated, by rw [left], source, ?_, by rw [shape]; rfl, q, ratio, positive, ?_⟩
  · rw [← index]
    exact (numbered.of_bare same.symm).getElem?_index row
  · intro r member x recorded above
    rw [rows] at member
    obtain ⟨o, marked, rfl⟩ := List.mem_map.mp member
    exact not_lt.mp (lowest o marked x ⟨recorded, above, rfl⟩)

/-- A pivot is found in a column that enters, in a row with the least positive ratio. -/
theorem pivot_ok (ordered : t.ColumnsInOrder) (numbered : t.RowsNumbered) (nonneg : 0 ≤ tolerance)
    {p : Pivot Rat} (chosen : t.evaluate.selectPivot tolerance = (u, .ok (.pivot p))) :
    u.Enters p.column tolerance ∧ ∃ source, u.Pivots p source ∧
      source.ratio = some (source.rhs / p.element) ∧ 0 < source.rhs / p.element ∧
      ∀ r ∈ u.rows, ∀ q, r.ratio = some q → 0 < q → source.rhs / p.element ≤ q := by
  have same := bare_of_selected chosen
  have kept := relativeCosts_selectPivot chosen
  obtain ⟨evaluated, entering, _⟩ := selectPivot_ok chosen
  obtain ⟨member, cheap⟩ := entering_spec evaluated ordered.priced_evaluate entering
  obtain ⟨rated, recorded, source, found, element, q, ratio, positive, least⟩ :=
    leaving_ok numbered chosen
  have enters : u.Enters p.column tolerance := by
    refine ⟨(bare_inj.mp same).2.1 ▸ member, ?_, ?_, rated⟩
    · rw [← entering]
      exact enteringColumn?_congr (bare_inj.mp same).2.1 kept
    · rw [price_of_bare same]
      exact cheap
  have own := rated source (List.mem_of_getElem? found)
  rw [ratio, element] at own
  split at own
  · rename_i large
    cases Option.some.inj own
    have ne_zero : p.element ≠ 0 := abs_pos.mp (nonneg.trans_lt large)
    exact ⟨enters, source, ⟨recorded, found, enters.member, element, ne_zero⟩, ratio, positive, least⟩
  · cases own

/-- Whatever the tolerance, a pivot that is found has an element to divide by: a division by zero
    gives zero, which is no positive ratio. -/
theorem exists_pivots (numbered : t.RowsNumbered) {p : Pivot Rat}
    (chosen : t.evaluate.selectPivot tolerance = (u, .ok (.pivot p))) :
    ∃ source, u.Pivots p source := by
  have same := bare_of_selected chosen
  obtain ⟨evaluated, entering, _⟩ := selectPivot_ok chosen
  have spec := enteringColumn?_spec evaluated tolerance
  rw [entering] at spec
  obtain ⟨rated, recorded, source, found, element, q, ratio, positive, _⟩ :=
    leaving_ok numbered chosen
  refine ⟨source, recorded, found, (bare_inj.mp same).2.1 ▸ spec.1, element, fun zero => ?_⟩
  have own := rated source (List.mem_of_getElem? found)
  rw [ratio, element, zero, div_zero] at own
  split at own
  · cases Option.some.inj own
    exact lt_irrefl 0 positive
  · cases own

/-! ### The next right-hand sides and the next value -/

namespace Pivots

variable {p : Pivot Rat} {source : Row Rat}
variable (numbered : t.RowsNumbered) (h : t.Pivots p source)
include numbered h

/-- The value grows by the price of the column that enters, as often as the ratio says. -/
theorem objectiveValue_next {symbols : SymbolTable} (made : t.pivoted symbols = .ok next) :
    next.objectiveValue =
      t.objectiveValue - t.price p.column * (source.rhs / p.element) := by
  let ratio := source.rhs / p.element
  have each : ∀ r ∈ t.rows, (t.nextRow symbols p source r).basisCost *
      (t.nextRow symbols p source r).rhs =
        r.basisCost * r.rhs - (r.basisCost * r.coefficient p.column * ratio -
          if r = source then t.costs.getD p.column.index 0 * ratio else 0) := by
    intro r member
    rw [basisCost_nextRow, h.rhs_nextRow numbered _ member, factor]
    by_cases own : r.index = p.row
    · have same := h.row_eq_source numbered member own
      have ne_zero := h.ne_zero
      subst same
      rw [if_pos own, if_pos own, if_pos rfl, h.element]
      simp only [ratio]
      field_simp
      ring
    · have other : r ≠ source := fun same => own (same ▸ h.source_index numbered)
      rw [if_neg own, if_neg own, if_neg other]
      simp only [ratio]
      ring
  have taken : (t.rows.map fun r =>
      if r = source then t.costs.getD p.column.index 0 * ratio else 0).sum =
        t.costs.getD p.column.index 0 * ratio := by
    rw [sum_single numbered.rows_nodup h.source_mem _ fun r _ other => if_neg other, if_pos rfl]
  rw [objectiveValue, (h.next_eq made).2, List.map_map, Scalar.sum_eq]
  simp only [Function.comp_def]
  rw [List.map_congr_left each, sum_sub, sum_sub, taken, List.sum_map_mul_right, objectiveValue,
    Scalar.sum_eq, price]
  simp only [ratio]
  ring

end Pivots

end Simplex.Tableau
