import Simplex.Proofs.Extraction
import Simplex.Proofs.Histories

/-!
Which tableaux stand for a feasible point. The look for a pivot passes over rows whose ratio is zero.
Where such a row limits the column that enters, the pivot goes past the limit and the row's next
right-hand side is negative; where there is none, no right-hand side becomes negative.
-/
namespace Simplex

namespace Tableau

/-- No right-hand side is negative. -/
def Nonneg (t : Tableau Rat) : Prop := ∀ r ∈ t.rows, 0 ≤ r.rhs

instance (t : Tableau Rat) : Decidable t.Nonneg :=
  inferInstanceAs (Decidable (∀ r ∈ t.rows, 0 ≤ r.rhs))

/-- A row holds a column at zero: its right-hand side is zero, and its entry there is positive. -/
def HeldAtZero (t : Tableau Rat) (s : Symbol) : Prop :=
  ∃ r ∈ t.rows, r.rhs = 0 ∧ 0 < r.coefficient s

/-- A row with a zero right-hand side limits the column that enters; its ratio is not positive. -/
def Overlooks (t : Tableau Rat) : Prop :=
  ∃ s, t.enteringColumn? 0 = some s ∧ ∃ r ∈ t.rows, r.rhs = 0 ∧ 0 < r.coefficient s

theorem not_overlooks_of_none {t : Tableau Rat} (none : t.enteringColumn? 0 = none) :
    ¬ t.Overlooks := by
  rintro ⟨s, entering, _⟩
  rw [none] at entering
  cases entering

theorem exists_numbers_of_bare {t u : Tableau Rat} (same : t.bare = u.bare) {r : Row Rat}
    (member : r ∈ u.rows) : ∃ o ∈ t.rows, o.rhs = r.rhs ∧ o.coefficient = r.coefficient := by
  obtain ⟨o, listed, equal⟩ := exists_row_of_bare same member
  obtain ⟨_, _, _, _, rhs, coefficients⟩ := Row.bare_inj.mp equal
  refine ⟨o, listed, rhs, ?_⟩
  unfold Row.coefficient
  rw [coefficients]

theorem nonneg_of_bare {t u : Tableau Rat} (same : t.bare = u.bare) (nonneg : t.Nonneg) :
    u.Nonneg := by
  intro r member
  obtain ⟨o, listed, rhs, _⟩ := exists_numbers_of_bare same member
  exact rhs ▸ nonneg o listed

theorem heldAtZero_of_bare {t u : Tableau Rat} (same : t.bare = u.bare) {s : Symbol}
    (held : u.HeldAtZero s) : t.HeldAtZero s := by
  obtain ⟨r, member, zero, limits⟩ := held
  obtain ⟨o, listed, rhs, coefficient⟩ := exists_numbers_of_bare same member
  exact ⟨o, listed, rhs.trans zero, coefficient ▸ limits⟩

theorem Rated.ratio_of_pos {t : Tableau Rat} {s : Symbol} (rated : t.Rated s 0) {r : Row Rat}
    (member : r ∈ t.rows) (positive : 0 < r.coefficient s) :
    r.ratio = some (r.rhs / r.coefficient s) := by
  rw [rated r member, if_pos (abs_pos.mpr positive.ne')]

/-- A pivot at the least positive ratio keeps the right-hand sides from being negative just if no row
    holds the column that enters at zero. -/
theorem Pivots.nonneg_next_iff {t next : Tableau Rat} {p : Pivot Rat} {source : Row Rat}
    {symbols : SymbolTable} (pivots : t.Pivots p source) (numbered : t.RowsNumbered)
    (rated : t.Rated p.column 0) (positive : 0 < source.rhs / p.element)
    (least : ∀ r ∈ t.rows, ∀ q, r.ratio = some q → 0 < q → source.rhs / p.element ≤ q)
    (nonneg : t.Nonneg) (made : t.pivoted symbols = .ok next) :
    next.Nonneg ↔ ¬ t.HeldAtZero p.column := by
  have nextRhs : next.Nonneg ↔
      ∀ r ∈ t.rows, 0 ≤ r.rhs - source.rhs / p.element * factor p r := by
    unfold Nonneg
    rw [(pivots.next_eq made).2, List.forall_mem_map]
    exact forall₂_congr fun r member => by rw [pivots.rhs_nextRow numbered symbols member]
  rw [nextRhs]
  constructor
  · rintro kept ⟨r, member, zero, limits⟩
    -- the row that leaves has a positive ratio, so the overlooked row is another one
    have other : r.index ≠ p.row := by
      intro own
      have leaves := pivots.row_eq_source numbered member own
      subst leaves
      rw [zero, zero_div] at positive
      exact lt_irrefl 0 positive
    have below := kept r member
    rw [zero, factor, if_neg other, sub_zero, zero_sub] at below
    linarith [mul_pos positive limits]
  · intro none r member
    by_cases own : r.index = p.row
    · have leaves := pivots.row_eq_source numbered member own
      subst leaves
      rw [factor, if_pos own, pivots.element]
      have ne_zero := pivots.ne_zero
      have value : r.rhs - r.rhs / p.element * (p.element - 1) = r.rhs / p.element := by
        field_simp
        ring
      rw [value]
      exact positive.le
    · rw [factor, if_neg own, sub_zero]
      rcases le_or_gt (r.coefficient p.column) 0 with lowers | limits
      · have raised := mul_nonpos_of_nonneg_of_nonpos positive.le lowers
        linarith [nonneg r member]
      · have nonzero : r.rhs ≠ 0 := fun zero => none ⟨r, member, zero, limits⟩
        have above : 0 < r.rhs / r.coefficient p.column :=
          div_pos (lt_of_le_of_ne (nonneg r member) nonzero.symm) limits
        have bound := least r member _ (rated.ratio_of_pos member limits) above
        rw [le_div_iff₀ limits] at bound
        linarith

theorem overlooks_iff {t : Tableau Rat} {s : Symbol} (entering : t.enteringColumn? 0 = some s) :
    t.Overlooks ↔ t.HeldAtZero s := by
  unfold Overlooks HeldAtZero
  rw [entering]
  simp

end Tableau

/-- Pivoting keeps the right-hand sides from being negative just if it overlooks no row. -/
theorem Follows.nonneg_iff {form : StandardForm Rat} {before after : Tableau Rat}
    (h : Follows form 0 before after) (nonneg : before.Nonneg) :
    after.Nonneg ↔ ¬ before.Overlooks := by
  obtain ⟨t, next, p, canonical, chosen, made, same⟩ := h
  have numbered := canonical.rowsNumbered.of_bare (Tableau.bare_of_selected chosen).symm
  obtain ⟨enters, source, pivots, ratio, positive, least⟩ :=
    Tableau.pivot_ok canonical.columnsInOrder canonical.rowsNumbered le_rfl chosen
  have marks : after.Nonneg ↔ next.Nonneg :=
    ⟨Tableau.nonneg_of_bare same, Tableau.nonneg_of_bare same.symm⟩
  rw [marks, Tableau.overlooks_iff enters.chosen]
  exact pivots.nonneg_next_iff numbered enters.rated positive least nonneg made

theorem eq_cons_of_getLast? {β : Type} {xs : List β} {last : β} (h : xs.getLast? = some last) :
    ∃ first rest, xs = first :: rest :=
  List.exists_cons_of_ne_nil (List.ne_nil_of_mem (List.mem_of_getLast? h))

theorem forall_mem_iff_dropLast {β : Type} {xs : List β} {last : β} (h : xs.getLast? = some last)
    {P : β → Prop} : (∀ x ∈ xs, P x) ↔ (∀ x ∈ xs.dropLast, P x) ∧ P last := by
  conv_lhs => rw [← List.dropLast_append_getLast? last h]
  rw [List.forall_mem_append, List.forall_mem_singleton]

/-- Of tableaux that follow one another none has a negative right-hand side just if the first has
    none and no pivot overlooks a row. -/
theorem all_nonneg_iff {form : StandardForm Rat} {first : Tableau Rat} {rest : List (Tableau Rat)}
    (chain : (first :: rest).IsChain (Follows form 0)) :
    (∀ t ∈ first :: rest, t.Nonneg) ↔
      first.Nonneg ∧ ∀ t ∈ (first :: rest).dropLast, ¬ t.Overlooks := by
  induction rest generalizing first with
  | nil => simp
  | cons second rest ih =>
    obtain ⟨follows, later⟩ := List.isChain_cons_cons.mp chain
    rw [List.forall_mem_cons, ih later, List.dropLast_cons_cons, List.forall_mem_cons]
    constructor
    · rintro ⟨nonneg, next, others⟩
      exact ⟨nonneg, (follows.nonneg_iff nonneg).mp next, others⟩
    · rintro ⟨nonneg, none, others⟩
      exact ⟨nonneg, (follows.nonneg_iff nonneg).mpr none, others⟩

end Simplex
