import Simplex.Proofs.Undefined
import Mathlib.Algebra.BigOperators.Group.Multiset.Basic
import Mathlib.Algebra.BigOperators.Ring.List
import Mathlib.Algebra.Order.BigOperators.Group.List
import Mathlib.Algebra.Order.Field.Rat
import Mathlib.Tactic.FieldSimp
import Mathlib.Tactic.Linarith
import Mathlib.Tactic.Ring

/-!
Exact arithmetic. On the rationals nothing is undefined, so the laws of unit columns hold. The two
sums of the method are the usual sum of a list, and the sums over rows and over columns may be
exchanged.
-/
namespace Simplex

-- zero and one of the rationals are the library's, whose lemmas on sums then apply as they stand
attribute [instance (low)] Scalar.toZero Scalar.toOne

namespace Scalar

private theorem foldl_add (xs : List Rat) (start : Rat) :
    xs.foldl (· + ·) start = start + xs.sum := by
  induction xs generalizing start with
  | nil => simp
  | cons x rest ih => rw [List.foldl_cons, ih, List.sum_cons, add_assoc]

theorem sum_eq (xs : List Rat) : sum xs = xs.sum := by
  have folded := foldl_add xs (-0)
  rw [neg_zero, zero_add] at folded
  exact folded

theorem accumulate_eq (xs : List Rat) : accumulate xs = xs.sum := by
  have folded := foldl_add xs 0
  rw [zero_add] at folded
  exact folded

theorem magnitude_eq (x : Rat) : magnitude x = |x| := by
  show Rat.abs x = |x|
  rcases le_total 0 x with nonneg | nonpos
  · rw [Rat.abs_of_nonneg nonneg, abs_of_nonneg nonneg]
  · rw [Rat.abs_of_nonpos nonpos, abs_of_nonpos nonpos]

theorem beq_rat {x y : Rat} : (x == y) = true ↔ x = y := beq_iff_eq

theorem agrees_rat {x d : Rat} : Agrees x d ↔ x = d := by
  simp [Agrees, isUndefined]

/-- The laws of unit columns hold on the rationals, where nothing is undefined. -/
instance : UnitLaws Rat where
  irrefl := lt_irrefl
  trans _ _ _ := lt_trans
  zero_beq_zero := beq_self_eq_true _
  neg_zero_beq_zero := beq_rat.mpr neg_zero
  one_beq_one := beq_self_eq_true _
  beq_zero_of_beq_one one := by
    rw [beq_rat.mp one]
    rfl
  add_zero_beq equal zero := beq_rat.mpr (by rw [beq_rat.mp equal, beq_rat.mp zero]; exact add_zero _)
  zero_add_beq zero equal := beq_rat.mpr (by rw [beq_rat.mp equal, beq_rat.mp zero]; exact zero_add _)
  sub_zero_beq equal zero := beq_rat.mpr (by rw [beq_rat.mp equal, beq_rat.mp zero]; exact sub_zero _)
  sub_agrees_zero equal := agrees_rat.mpr (sub_eq_zero.mpr (beq_rat.mp equal))
  mul_one_agrees one := agrees_rat.mpr (by rw [beq_rat.mp one]; exact mul_one _)
  mul_zero_agrees zero := agrees_rat.mpr (by rw [beq_rat.mp zero]; exact mul_zero _)
  zero_mul_beq zero _ := beq_rat.mpr (by rw [beq_rat.mp zero]; exact zero_mul _)
  zero_mul_undefined _ infinite := by cases infinite
  zero_div_beq zero _ _ := beq_rat.mpr (by rw [beq_rat.mp zero]; exact zero_div _)
  undefined_add h := by simp [isUndefined] at h
  undefined_sub h := by simp [isUndefined] at h
  undefined_mul h := by simp [isUndefined] at h
  undefined_div h := by simp [isUndefined] at h
  not_lt_neg equal nonneg := by
    rw [agrees_rat.mp equal]
    exact fun below => nonneg (neg_pos.mp below)
  not_lt_magnitude equal nonneg := by
    rw [agrees_rat.mp equal, magnitude_eq]
    intro below
    exact nonneg (below.trans_eq abs_zero)
  isFinite_of_div_pos _ := rfl

end Scalar

theorem sum_exchange {β γ : Type} (rows : List β) (columns : List γ) (f : β → γ → Rat) :
    (rows.map fun r => (columns.map fun c => f r c).sum).sum =
      (columns.map fun c => (rows.map fun r => f r c).sum).sum := by
  simpa using Multiset.sum_map_sum_map (rows : Multiset β) (columns : Multiset γ) (f := f)

theorem sum_sub {γ : Type} (columns : List γ) (f g : γ → Rat) :
    (columns.map fun c => f c - g c).sum = (columns.map f).sum - (columns.map g).sum := by
  simpa using Multiset.sum_map_sub (m := (columns : Multiset γ)) (f := f) (g := g)

/-- A sum with at most one summand that is not zero. -/
theorem sum_single {γ : Type} [DecidableEq γ] {columns : List γ} (distinct : columns.Nodup)
    {s : γ} (member : s ∈ columns) (f : γ → Rat) (others : ∀ c ∈ columns, c ≠ s → f c = 0) :
    (columns.map f).sum = f s := by
  rw [List.sum_map_eq_nsmul_single s f (fun c ne listed => others c listed ne),
    List.count_eq_one_of_mem distinct member, one_nsmul]

end Simplex
