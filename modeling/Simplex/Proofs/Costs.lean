import Simplex.Proofs.Equations

/-!
Prices and basic points. The price of a column is what one unit of it costs beyond the basis that
pays for it; an evaluated tableau records the prices as relative costs. Wherever the equations hold,
the objective is the tableau's value less the prices, so a point that rests off the basis has just
the tableau's value.
-/
namespace Simplex.Tableau

/-- What one unit of a column costs beyond the basis that pays for it. -/
def price (t : Tableau Rat) (s : Symbol) : Rat :=
  (t.rows.map fun r => r.basisCost * r.coefficient s).sum - t.costs.getD s.index 0

/-- The relative costs of the columns are their prices. -/
def Priced (t : Tableau Rat) : Prop := ∀ s ∈ t.columns, t.relativeCost s = t.price s

/-- A point is zero outside of the basis. -/
def Rests (t : Tableau Rat) (y : Symbol → Rat) : Prop :=
  ∀ s ∈ t.columns, (∀ r ∈ t.rows, r.basis ≠ s) → y s = 0

theorem map_rows_of_bare {β : Type} {t u : Tableau Rat} (same : t.bare = u.bare) (f : Row Rat → β)
    (unmarked : ∀ r : Row Rat, f r.bare = f r) : t.rows.map f = u.rows.map f := by
  have rows := congrArg (List.map f) (bare_inj.mp same).2.2.2
  simpa only [List.map_map, Function.comp_def, unmarked] using rows

theorem objectiveValue_of_bare {t u : Tableau Rat} (same : t.bare = u.bare) :
    t.objectiveValue = u.objectiveValue := by
  unfold objectiveValue
  rw [map_rows_of_bare same _ fun _ => rfl]

theorem price_of_bare {t u : Tableau Rat} (same : t.bare = u.bare) (s : Symbol) :
    t.price s = u.price s := by
  unfold price
  rw [map_rows_of_bare same (fun r => r.basisCost * r.coefficient s) fun _ => rfl,
    (bare_inj.mp same).2.2.1]

section

variable {form : StandardForm Rat} {t u : Tableau Rat}

theorem ColumnsInOrder.priced_evaluate (h : t.ColumnsInOrder) : t.evaluate.Priced := by
  intro s member
  rw [h.relativeCost_evaluate member, Scalar.sum_eq]
  rfl

theorem ColumnsInOrder.priced (h : t.ColumnsInOrder) {tolerance : Rat} {choice : PivotChoice Rat}
    (chosen : t.evaluate.selectPivot tolerance = (u, .ok choice)) : u.Priced := by
  have same := bare_of_selected chosen
  intro s member
  rw [(bare_inj.mp same).2.1] at member
  rw [price_of_bare same]
  unfold relativeCost
  rw [relativeCosts_selectPivot chosen]
  exact h.priced_evaluate s member

/-- The point that has at each basis what its row says, and zero off the basis. -/
def atBasis (t : Tableau Rat) (f : Row Rat → Rat) (c : Symbol) : Rat :=
  match t.rows.find? fun r => decide (r.basis = c) with
  | some r => f r
  | none => 0

theorem rests_atBasis (f : Row Rat → Rat) : t.Rests (t.atBasis f) := by
  intro c _ outside
  have none : t.rows.find? (fun r => decide (r.basis = c)) = none :=
    List.find?_eq_none.mpr fun r member => by simpa using outside r member
  rw [atBasis, none]

theorem atBasis_nonneg {f : Row Rat → Rat} (nonneg : ∀ r ∈ t.rows, 0 ≤ f r) (c : Symbol) :
    0 ≤ t.atBasis f c := by
  unfold atBasis
  split
  · rename_i r found
    exact nonneg r (List.mem_of_find?_eq_some found)
  · exact le_rfl

namespace Standing

variable (h : t.Standing)
include h

theorem basis_inj {r o : Row Rat} (member : r ∈ t.rows) (other : o ∈ t.rows)
    (same : o.basis = r.basis) : o = r :=
  (unitBasis_iff.mp h.unit).basis_inj h.numbered r member o other same

theorem atBasis_basis (f : Row Rat → Rat) {r : Row Rat} (member : r ∈ t.rows) :
    t.atBasis f r.basis = f r := by
  unfold atBasis
  cases found : t.rows.find? fun o => decide (o.basis = r.basis) with
  | none => simpa using List.find?_eq_none.mp found r member
  | some o =>
    have same : o.basis = r.basis := by simpa using List.find?_some found
    rw [h.basis_inj member (List.mem_of_find?_eq_some found) same]

/-- A row's left side at a point that rests off the basis is the value of its basis. -/
theorem dot_eq {y : Symbol → Rat} (rests : t.Rests y) {r : Row Rat} (member : r ∈ t.rows) :
    r.dot t.columns y = y r.basis := by
  have own : r.coefficient r.basis = 1 := by rw [h.unit r member r member, if_pos rfl]
  unfold Row.dot
  rw [sum_single h.columns.columns_nodup (h.basis r member), own, one_mul]
  intro s column other
  by_cases basic : ∃ o ∈ t.rows, o.basis = s
  · obtain ⟨o, listed, rfl⟩ := basic
    have different : r.index ≠ o.index := fun index =>
      other (congrArg Row.basis ((h.numbered.index_inj listed member).mp index.symm))
    rw [h.unit o listed r member, if_neg different, zero_mul]
  · rw [rests s column fun o listed same => basic ⟨o, listed, same⟩, mul_zero]

/-- Of the points that rest off the basis, the equations hold where each basis has its row's
    right-hand side. -/
theorem satisfied_iff {y : Symbol → Rat} (rests : t.Rests y) :
    t.Satisfied y ↔ ∀ r ∈ t.rows, y r.basis = r.rhs := by
  unfold Satisfied
  exact forall₂_congr fun r member => by rw [h.dot_eq rests member]

/-- The basis is free. -/
theorem price_basis {r : Row Rat} (member : r ∈ t.rows) : t.price r.basis = 0 := by
  have own : r.coefficient r.basis = 1 := by rw [h.unit r member r member, if_pos rfl]
  unfold price
  rw [sum_single h.numbered.rows_nodup member, own, mul_one, h.basisCost r member, sub_self]
  intro o listed other
  have different : o.index ≠ r.index := fun index =>
    other ((h.numbered.index_inj listed member).mp index)
  rw [h.unit r member o listed, if_neg different, mul_zero]

/-- At a point that rests off the basis no price is paid. -/
theorem sum_price_eq_zero {y : Symbol → Rat} (rests : t.Rests y) :
    (t.columns.map fun s => t.price s * y s).sum = 0 := by
  refine List.sum_eq_zero fun x listed => ?_
  obtain ⟨s, member, rfl⟩ := List.mem_map.mp listed
  by_cases basic : ∃ r ∈ t.rows, r.basis = s
  · obtain ⟨r, row, rfl⟩ := basic
    rw [h.price_basis row, zero_mul]
  · rw [rests s member fun r row same => basic ⟨r, row, same⟩, mul_zero]

end Standing

/-- Where the equations hold, the costs add up to the tableau's value less the prices. -/
theorem costs_eq {y : Symbol → Rat} (satisfied : t.Satisfied y) :
    (t.columns.map fun s => t.costs.getD s.index 0 * y s).sum =
      t.objectiveValue - (t.columns.map fun s => t.price s * y s).sum := by
  have paid : (t.columns.map fun s =>
      (t.rows.map fun r => r.basisCost * r.coefficient s).sum * y s).sum = t.objectiveValue :=
    calc (t.columns.map fun s =>
          (t.rows.map fun r => r.basisCost * r.coefficient s).sum * y s).sum
      _ = (t.columns.map fun s =>
          (t.rows.map fun r => r.basisCost * (r.coefficient s * y s)).sum).sum := by
        simp only [← List.sum_map_mul_right, mul_assoc]
      _ = (t.rows.map fun r => r.basisCost * r.dot t.columns y).sum := by
        rw [sum_exchange]
        simp only [List.sum_map_mul_left, Row.dot]
      _ = t.objectiveValue := by
        rw [objectiveValue, Scalar.sum_eq]
        congr 1
        exact List.map_congr_left fun r member => by rw [satisfied r member]
  rw [← paid, ← sum_sub]
  congr 1
  refine List.map_congr_left fun s _ => ?_
  rw [price]
  ring

/-- Where the equations of the standard form hold, its objective is the tableau's value less the
    prices. -/
theorem Canonical.objective_eq {p : Problem Rat} (represents : form.Represents p)
    (h : t.Canonical form) {w : String → Rat} (satisfied : form.Satisfied w) :
    form.objective.value w = t.objectiveValue -
      (t.columns.map fun s => t.price s * w (form.symbols.name s)).sum := by
  rw [← costs_eq ((h.equivalent w).mpr satisfied), h.costs, h.columns]
  exact (form.symbols.row_value w represents.objective_known).symm

end

end Simplex.Tableau
