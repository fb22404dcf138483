import Simplex.Proofs.Unbounded

/-!
When a step from a feasible tableau is right. A tableau that stands by itself needs no standard form
to say so: the next tableau is feasible, or the ray along the column that enters is, just if no row
holds the column at zero (`step_sound_iff`).
-/
namespace Simplex.Tableau

/-- The point at which each basis has the right-hand side of its row and all else is zero. -/
def basicPoint (t : Tableau Rat) : Symbol → Rat := t.atBasis Row.rhs

/-- The point that is reached from the basic one when a column grows. -/
def ray (t : Tableau Rat) (s : Symbol) (growth : Rat) (c : Symbol) : Rat :=
  t.basicPoint c + growth * t.slope s c

/-- The value of the objective at a point. -/
def costAt (t : Tableau Rat) (y : Symbol → Rat) : Rat :=
  (t.columns.map fun c => t.costs.getD c.index 0 * y c).sum

/-- Along a column, points that satisfy the equations and are nowhere negative take the objective
    past every bound. -/
def UnboundedAlong (t : Tableau Rat) (s : Symbol) : Prop :=
  ∀ bound, ∃ growth, 0 ≤ growth ∧ t.Satisfied (t.ray s growth) ∧
    (∀ c ∈ t.columns, 0 ≤ t.ray s growth c) ∧ bound < t.costAt (t.ray s growth)

variable {t u : Tableau Rat} {s : Symbol}

theorem rests_basicPoint : t.Rests t.basicPoint := rests_atBasis _

theorem sum_ray (columns : List Symbol) (f : Symbol → Rat) (growth : Rat) :
    (columns.map fun c => f c * t.ray s growth c).sum =
      (columns.map fun c => f c * t.basicPoint c).sum +
        growth * (columns.map fun c => f c * t.slope s c).sum := by
  rw [← List.sum_map_mul_left, ← List.sum_map_add]
  congr 1
  refine List.map_congr_left fun c _ => ?_
  rw [ray]
  ring

namespace Standing

variable (h : t.Standing)
include h

theorem satisfied_basicPoint : t.Satisfied t.basicPoint :=
  (h.satisfied_iff rests_basicPoint).mpr fun _ member => h.atBasis_basis _ member

/-- The equations hold all along a column. -/
theorem satisfied_ray (column : s ∈ t.columns) (growth : Rat) : t.Satisfied (t.ray s growth) := by
  intro r member
  have start := h.satisfied_basicPoint r member
  have still := h.dot_slope column member
  unfold Row.dot at start still ⊢
  rw [sum_ray, start, still, mul_zero, add_zero]

/-- Along a column the objective falls by the column's price. -/
theorem costAt_ray (column : s ∈ t.columns) (growth : Rat) :
    t.costAt (t.ray s growth) = t.objectiveValue - growth * t.price s := by
  rw [costAt, costs_eq (h.satisfied_ray column growth), sum_ray,
    h.sum_price_eq_zero rests_basicPoint, h.sum_price_slope column, zero_add]

section Paid

variable (paid : t.price s ≠ 0)
include paid

theorem slope_self : t.slope s s = 1 := by
  have rests : t.gives s s = 0 := by
    unfold gives
    rw [List.find?_eq_none.mpr fun r member => by
      simpa using h.ne_basis_of_price paid member]
  rw [slope, if_pos rfl, rests, add_zero]

theorem slope_basis {r : Row Rat} (member : r ∈ t.rows) :
    t.slope s r.basis = -r.coefficient s := by
  rw [slope, if_neg (h.ne_basis_of_price paid member), zero_add, h.gives_basis member]

theorem slope_nonneg_iff : (∀ c ∈ t.columns, 0 ≤ t.slope s c) ↔ t.Unlimited s := by
  constructor
  · intro nonneg r member
    have own := nonneg r.basis (h.basis r member)
    rw [h.slope_basis paid member] at own
    linarith
  · intro unlimited c _
    exact slope_nonneg unlimited c

end Paid

/-- A column that earns makes the objective unbounded just if no row limits it. -/
theorem unboundedAlong_iff (column : s ∈ t.columns) (cheap : t.price s < 0) (nonneg : t.Nonneg) :
    t.UnboundedAlong s ↔ t.Unlimited s := by
  constructor
  · intro unbounded r member
    by_contra limited
    have positive : 0 < r.coefficient s := not_le.mp limited
    -- the row allows no more growth than its ratio, and the objective no more than that earns
    obtain ⟨growth, _, _, allowed, above⟩ :=
      unbounded (t.objectiveValue - r.rhs / r.coefficient s * t.price s)
    have own := allowed r.basis (h.basis r member)
    rw [ray, basicPoint, h.atBasis_basis _ member, h.slope_basis cheap.ne member] at own
    rw [h.costAt_ray column] at above
    have most : growth ≤ r.rhs / r.coefficient s := by
      rw [le_div_iff₀ positive]
      linarith
    linarith [mul_le_mul_of_nonneg_right most (neg_nonneg.mpr cheap.le)]
  · intro unlimited bound
    let growth := (|bound - t.objectiveValue| + 1) / -t.price s
    have far : 0 ≤ growth := div_nonneg (by positivity) (neg_nonneg.mpr cheap.le)
    refine ⟨growth, far, h.satisfied_ray column growth, fun c _ => ?_, ?_⟩
    · exact add_nonneg (atBasis_nonneg nonneg c) (mul_nonneg far (slope_nonneg unlimited c))
    · have gain : growth * t.price s = -(|bound - t.objectiveValue| + 1) := by
        have paid := cheap.ne
        simp only [growth]
        field_simp
      rw [h.costAt_ray column, gain]
      linarith [le_abs_self (bound - t.objectiveValue)]

end Standing

theorem unlimited_of_bare (same : t.bare = u.bare) (unlimited : t.Unlimited s) :
    u.Unlimited s := by
  intro r member
  obtain ⟨o, listed, _, coefficient⟩ := exists_numbers_of_bare same member
  exact coefficient ▸ unlimited o listed

theorem heldAtZero_iff_of_bare (same : t.bare = u.bare) : t.HeldAtZero s ↔ u.HeldAtZero s :=
  ⟨heldAtZero_of_bare same.symm, heldAtZero_of_bare same⟩

/-- Where a column enters a feasible tableau, a row leaves or the column is called unbounded. The
    next tableau is feasible just if no row holds the column at zero; the ray along a column that is
    called unbounded is nowhere negative, and the objective is unbounded along it, just if no row
    does. -/
theorem step_sound_iff (standing : t.Standing) (nonneg : t.Nonneg)
    (entering : t.evaluate.enteringColumn? 0 = some s) :
    (∃ u p, t.evaluate.selectPivot 0 = (u, .ok (.pivot p)) ∧ p.column = s ∧
      ∀ symbols, ∃ next, u.pivoted symbols = .ok next ∧ (next.Nonneg ↔ ¬ t.HeldAtZero s)) ∨
    (∃ u, t.evaluate.selectPivot 0 = (u, .ok (.unbounded s)) ∧
      t.slope s s = 1 ∧ (∀ r ∈ t.rows, t.slope s r.basis = -r.coefficient s) ∧
      ((∀ c ∈ t.columns, 0 ≤ t.slope s c) ↔ ¬ t.HeldAtZero s) ∧
      (t.UnboundedAlong s ↔ ¬ t.HeldAtZero s)) := by
  obtain ⟨u, choice, chosen⟩ := standing.columns.selectPivot_isOk 0
  have same := bare_of_selected chosen
  have found := (selectPivot_ok chosen).2
  cases choice with
  | optimal =>
    rw [entering] at found
    cases found.1
  | pivot p =>
    obtain rfl : s = p.column := Option.some.inj (entering.symm.trans found.1)
    obtain ⟨enters, source, pivots, _, positive, least⟩ :=
      pivot_ok standing.columns standing.numbered le_rfl chosen
    refine .inl ⟨u, p, chosen, rfl, fun symbols => ?_⟩
    obtain ⟨next, made⟩ := pivots.exists_next symbols
    refine ⟨next, made, ?_⟩
    rw [heldAtZero_iff_of_bare same.symm]
    exact pivots.nonneg_next_iff (standing.numbered.of_bare same.symm) enters.rated positive least
      (nonneg_of_bare same.symm nonneg) made
  | unbounded c =>
    obtain rfl : s = c := Option.some.inj (entering.symm.trans found.1)
    obtain ⟨enters, none⟩ := unbounded_ok standing.columns chosen
    have column : s ∈ t.columns := (bare_inj.mp same).2.1 ▸ enters.member
    have cheap : t.price s < 0 := by
      rw [← price_of_bare same]
      simpa using enters.cheap
    have free : ¬ t.HeldAtZero s ↔ t.Unlimited s := by
      rw [heldAtZero_iff_of_bare same.symm,
        not_heldAtZero_iff enters.rated none (nonneg_of_bare same.symm nonneg)]
      exact ⟨unlimited_of_bare same, unlimited_of_bare same.symm⟩
    refine .inr ⟨u, chosen, standing.slope_self cheap.ne,
      fun r => standing.slope_basis cheap.ne, ?_⟩
    rw [free]
    exact ⟨standing.slope_nonneg_iff cheap.ne, standing.unboundedAlong_iff column cheap nonneg⟩

/-- A first row of a slack with these entries. -/
private def slackRow (index : Nat) (rhs : Rat) (coefficients : List Rat) : Row Rat :=
  ⟨index, ⟨index⟩, "d" ++ toString (index + 1), 0, rhs, coefficients, none, false⟩

/-- The first tableau of: maximize `x` where `x` is at most `y` and at most four. -/
def corner : Tableau Rat :=
  ⟨1, [⟨0⟩, ⟨1⟩, ⟨2⟩, ⟨3⟩], [0, 0, 1, 0],
    [slackRow 0 0 [1, 0, 1, -1], slackRow 1 4 [0, 1, 1, 0]], [], [], none⟩

/-- The first tableau of: maximize `x` where `x` is at most zero. -/
def stuck : Tableau Rat := ⟨1, [⟨0⟩, ⟨1⟩], [0, 1], [slackRow 0 0 [1, 1]], [], [], none⟩

/-- The choice is a pivot. -/
private def isPivot (choice : Except (CalculationError Rat) (PivotChoice Rat)) : Bool :=
  match choice with
  | .ok (.pivot _) => true
  | _ => false

/-- In both tableaux a row holds `x` at zero: the pivot past it leaves a negative right-hand side,
    and where no row leaves, `x` is called unbounded and is not. -/
theorem corner_step :
    (corner.Standing ∧ corner.Nonneg ∧ corner.HeldAtZero ⟨2⟩ ∧
      ∃ u p, corner.evaluate.selectPivot 0 = (u, .ok (.pivot p)) ∧ p.column = ⟨2⟩ ∧
        ∀ symbols, ∃ next, u.pivoted symbols = .ok next ∧ ¬ next.Nonneg) ∧
    (stuck.Standing ∧ stuck.Nonneg ∧ stuck.HeldAtZero ⟨1⟩ ∧
      ∃ u, stuck.evaluate.selectPivot 0 = (u, .ok (.unbounded ⟨1⟩)) ∧
        ¬ stuck.UnboundedAlong ⟨1⟩) := by
  constructor
  · have standing : corner.Standing :=
      ⟨rfl, rfl, by decide, by decide, by unfold UnitBasis; decide⟩
    have nonneg : corner.Nonneg := by decide
    have held : corner.HeldAtZero ⟨2⟩ := ⟨_, List.mem_cons_self, by decide, by decide⟩
    refine ⟨standing, nonneg, held, ?_⟩
    have entering : corner.evaluate.enteringColumn? 0 = some ⟨2⟩ := by decide +kernel
    rcases step_sound_iff standing nonneg entering with
      ⟨u, p, chosen, column, steps⟩ | ⟨u, chosen, _⟩
    · refine ⟨u, p, chosen, column, fun symbols => ?_⟩
      obtain ⟨next, made, sound⟩ := steps symbols
      exact ⟨next, made, fun kept => sound.mp kept held⟩
    · have pivots : isPivot (corner.evaluate.selectPivot 0).2 = true := by decide +kernel
      rw [chosen] at pivots
      cases pivots
  · have standing : stuck.Standing :=
      ⟨rfl, rfl, by decide, by decide, by unfold UnitBasis; decide⟩
    have nonneg : stuck.Nonneg := by decide
    have held : stuck.HeldAtZero ⟨1⟩ := ⟨_, List.mem_cons_self, by decide, by decide⟩
    refine ⟨standing, nonneg, held, ?_⟩
    have entering : stuck.evaluate.enteringColumn? 0 = some ⟨1⟩ := by decide +kernel
    rcases step_sound_iff standing nonneg entering with
      ⟨u, p, chosen, _⟩ | ⟨u, chosen, _, _, _, sound⟩
    · have stops : isPivot (stuck.evaluate.selectPivot 0).2 = false := by decide +kernel
      rw [chosen] at stops
      cases stops
    · exact ⟨u, chosen, fun unbounded => sound.mp unbounded held⟩

end Simplex.Tableau
