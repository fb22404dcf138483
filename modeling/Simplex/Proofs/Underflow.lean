import Simplex.Proofs.Double

/-!
Sums of doubles do not underflow: a sum that is not zero is not rounded to zero, because the least
exponent of the summands is that of the least double. A sum is therefore a negative zero only if its
summands are, and a sum begun at zero never is.
-/
namespace Simplex.Double

open Float.Model (Format UnpackedFloat totalExponent)
open Float.Model.UnpackedFloat (Sign ExtendedMantissa Accuracy pack unpack packComponents
  roundWithAccuracy shiftToTargetExponent shiftToExponent decreaseExponent)

variable {x y : Float} {s t : Sign} {m : Nat} {e : Int}

/-! ### Rounding -/

theorem mantissa_shiftRight (em : ExtendedMantissa) (n : Nat) :
    (em >>> n).mantissa = em.mantissa / 2 ^ n := by
  induction n with
  | zero => simp [HShiftRight.hShiftRight, Nat.repeat]
  | succ n ih =>
    show (em >>> n).mantissa / 2 = _
    rw [ih, Nat.div_div_eq_div_mul, Nat.pow_succ]

theorem le_roundedMantissa (em : ExtendedMantissa) : em.mantissa ≤ em.roundedMantissa := by
  unfold ExtendedMantissa.roundedMantissa
  cases em.accuracy with
  | exact => exact le_rfl
  | inexact o => cases o <;> simp [Accuracy.roundToNearestEven]

theorem mantissa_ofMantissaAndAccuracy (m : Nat) (a : Accuracy) :
    (ExtendedMantissa.ofMantissaAndAccuracy m a).mantissa = m := by
  cases a with
  | exact => rfl
  | inexact o => cases o <;> rfl

/-- A shift to the exponent of a double leaves a mantissa of 53 bits at most that is not zero. -/
theorem shiftToTargetExponent_bounds (pos : 0 < m) (least : -1074 ≤ e) (a : Accuracy) :
    let shifted := shiftToTargetExponent .binary64 m e a
    0 < shifted.1.mantissa ∧ shifted.1.mantissa < 2 ^ 53 ∧ -1074 ≤ shifted.2 := by
  have below := Nat.lt_log2_self (n := m)
  have above := Nat.log2_self_le pos.ne'
  simp only [shiftToTargetExponent, shiftToExponent, mantissa_shiftRight,
    mantissa_ofMantissaAndAccuracy, targetExponent_eq, totalExponent]
  by_cases wide : 52 ≤ m.log2
  · obtain ⟨n, width⟩ := Nat.exists_eq_add_of_le wide
    have shift : (max ((m.log2 : Int) + 1 + e - 53) (-1074) - e).toNat = n := by omega
    rw [shift]
    rw [width] at below above
    refine ⟨Nat.div_pos ?_ (Nat.two_pow_pos n), ?_, by omega⟩
    · exact (Nat.pow_le_pow_right (by decide) (by omega)).trans above
    · rw [Nat.div_lt_iff_lt_mul (Nat.two_pow_pos n), ← Nat.pow_add]
      exact below.trans_eq (congrArg _ (by omega))
  · have shift : (max ((m.log2 : Int) + 1 + e - 53) (-1074) - e).toNat = 0 := by omega
    rw [shift, Nat.pow_zero, Nat.div_one]
    exact ⟨pos, below.trans_le (Nat.pow_le_pow_right (by decide) (by omega)), by omega⟩

theorem roundWithAccuracy_bounds (pos : 0 < m) (least : -1074 ≤ e) (a : Accuracy) :
    ∃ n k, ∃ positive : 0 < n, roundWithAccuracy .binary64 s m e a = .finite s n k positive ∧
      n < 2 ^ 53 ∧ -1074 ≤ k := by
  obtain ⟨first, _, exponent⟩ := shiftToTargetExponent_bounds pos least a
  obtain ⟨positive, narrow, lowest⟩ :=
    shiftToTargetExponent_bounds (first.trans_le (le_roundedMantissa _)) exponent .exact
  refine ⟨_, _, positive, ?_, narrow, lowest⟩
  unfold roundWithAccuracy
  exact dif_neg positive.ne'

theorem round_bounds (pos : 0 < m) (least : -1074 ≤ e) :
    ∃ n k, ∃ positive : 0 < n, UnpackedFloat.round .binary64 s m e = .finite s n k positive ∧
      n < 2 ^ 53 ∧ -1074 ≤ k := by
  unfold UnpackedFloat.round decreaseExponent
  refine roundWithAccuracy_bounds ?_ ?_ .exact
  · rw [Nat.shiftLeft_eq]
    exact Nat.mul_pos pos (Nat.two_pow_pos _)
  · simp only [targetExponent_eq]
    omega

/-! ### Storing -/

theorem of_unpack_packComponents_eq_zero (s : Sign) (exponent : BitVec 11) (mantissa : BitVec 52)
    (zero : unpack .binary64 (packComponents .binary64 s exponent mantissa) = .zero t) :
    s = t ∧ exponent = 0#11 ∧ mantissa = 0#52 := by
  unfold unpack at zero
  simp only [Float.Model.UnpackedFloat.unpackSign_packComponents,
    Float.Model.UnpackedFloat.unpackExponent_packComponents,
    Float.Model.UnpackedFloat.unpackMantissa_packComponents,
    Float.Model.UnpackedFloat.Sign.ofBitVec_toBitVec] at zero
  split at zero
  · split at zero <;> cases zero
  · split at zero
    · rename_i exponent
      split at zero
      · rename_i mantissa
        cases zero
        exact ⟨rfl, exponent, mantissa⟩
      · cases zero
    · cases zero

/-- A finite shape that fits a double is not stored as a zero. -/
theorem stored_finite_ne_zero {pos : 0 < m} (narrow : m < 2 ^ 53) (least : -1074 ≤ e) :
    stored (.finite s m e pos) ≠ .zero t := by
  have bias : ((Format.binary64.exponentBias : Nat) : Int) = 1023 := rfl
  unfold stored pack
  simp only [bias]
  intro zero
  split at zero
  · obtain ⟨_, full, _⟩ := of_unpack_packComponents_eq_zero _ _ _ zero
    exact absurd full (by decide)
  · rename_i within
    split at zero
    · -- a normal double has a bit set in its exponent
      obtain ⟨_, none, _⟩ := of_unpack_packComponents_eq_zero _ _ _ zero
      have field := congrArg BitVec.toNat none
      rw [BitVec.toNat_ofNat] at field
      change (e + 1023 + (52 : Nat)).toNat % 2 ^ 11 = 0 at field
      change ¬ 2 ^ 11 ≤ (e + 1023 + (52 : Nat)).toNat + 1 at within
      omega
    · -- a smaller one has a bit set in its mantissa
      rename_i subnormal
      obtain ⟨_, _, none⟩ := of_unpack_packComponents_eq_zero _ _ _ zero
      have field := congrArg BitVec.toNat none
      rw [BitVec.toNat_ofNat] at field
      change m % 2 ^ 52 = 0 at field
      change ¬ m.log2 + 1 = 53 at subnormal
      have below : m.log2 < 53 := (Nat.log2_lt pos.ne').mpr narrow
      have small : m < 2 ^ 52 := (Nat.log2_lt pos.ne').mp (by omega)
      omega

theorem stored_round_ne_zero (pos : 0 < m) (least : -1074 ≤ e) :
    stored (UnpackedFloat.round .binary64 s m e) ≠ .zero t := by
  obtain ⟨n, k, positive, rounded, narrow, lowest⟩ := round_bounds (s := s) pos least
  rw [rounded]
  exact stored_finite_ne_zero narrow lowest

/-- A rounded integer mantissa is stored as a zero only if it is one, and then without a minus. -/
theorem stored_normalize_ne_negative_zero {mantissa : Int} (least : -1074 ≤ e) :
    stored (UnpackedFloat.normalize .binary64 mantissa e .positive) ≠ .zero .negative := by
  unfold UnpackedFloat.normalize
  split
  · rename_i below
    exact stored_round_ne_zero (by have := Int.compare_eq_lt.mp below; omega) least
  · rw [stored_zero]
    simp
  · rename_i above
    exact stored_round_ne_zero (by have := Int.compare_eq_gt.mp above; omega) least

/-! ### Negative zeros -/

@[simp] theorem stored_infinity (s : Sign) : stored (.infinity s) = .infinity s := by
  cases s <;> rfl

/-- A sum is a negative zero only if its first summand is. -/
theorem shape_of_add_negative_zero (zero : shape (x + y) = .zero .negative) :
    shape x = .zero .negative := by
  rw [shape_add] at zero
  cases hx : shape x with
  | notANumber => simp [hx, UnpackedFloat.add] at zero
  | infinity s =>
    cases hy : shape y with
    | infinity t =>
      simp only [hx, hy, UnpackedFloat.add] at zero
      split at zero <;> simp at zero
    | notANumber | zero | finite => simp [hx, hy, UnpackedFloat.add] at zero
  | zero s =>
    cases hy : shape y with
    | zero t => cases s <;> cases t <;> simp_all [UnpackedFloat.add]
    | notANumber | infinity => simp [hx, hy, UnpackedFloat.add] at zero
    | finite t m e pos =>
      have own : stored (shape y) = .zero .negative := by rw [hx, hy] at zero; rwa [hy]
      rw [stored_shape, hy] at own
      cases own
  | finite s m e pos =>
    cases hy : shape y with
    | notANumber | infinity => simp [hx, hy, UnpackedFloat.add] at zero
    | zero t =>
      have own : stored (shape x) = .zero .negative := by rw [hx, hy] at zero; rwa [hx]
      rw [stored_shape, hx] at own
      cases own
    | finite t n k pos' =>
      have least := (unpack_finite hx).2.1
      have least' := (unpack_finite hy).2.1
      rw [hx, hy] at zero
      exact absurd zero (stored_normalize_ne_negative_zero (le_min least least'))

theorem apply_neg (s : Sign) (n : Int) : (-s).apply n = -s.apply n := by
  cases s with
  | negative => exact (Int.neg_neg n).symm
  | positive => rfl

/-- Subtracting is adding the negation. -/
theorem sub_eq_add (x y : Float) : x - y = x + -y := by
  rw [← shape_inj, shape_sub, shape_add, shape_neg]
  cases shape x with
  | notANumber => rfl
  | infinity | zero => cases shape y <;> rfl
  | finite s m e pos =>
    cases shape y with
    | finite t n k pos' =>
      simp only [UnpackedFloat.sub, UnpackedFloat.add, UnpackedFloat.neg, apply_neg,
        Int.sub_eq_add_neg]
    | notANumber | infinity | zero => rfl

/-- A difference is a negative zero only if what is subtracted from is. -/
theorem shape_of_sub_negative_zero (zero : shape (x - y) = .zero .negative) :
    shape x = .zero .negative :=
  shape_of_add_negative_zero (sub_eq_add x y ▸ zero)

/-- A sum begun at zero is no negative zero. -/
theorem shape_accumulate_ne (xs : List Float) :
    shape (Scalar.accumulate xs) ≠ .zero .negative := by
  have run (start : Float) (plus : shape start ≠ .zero .negative) :
      shape (xs.foldl (· + ·) start) ≠ .zero .negative := by
    induction xs generalizing start with
    | nil => exact plus
    | cons x xs ih => exact ih _ fun zero => plus (shape_of_add_negative_zero zero)
  exact run 0 (by simp)

/-- Zero is neutral on the left of any double but a negative zero. -/
theorem zero_add (plus : shape x ≠ .zero .negative) : 0 + x = x := by
  rw [← shape_inj, shape_add, shape_zero]
  conv_rhs => rw [← stored_shape]
  cases hx : shape x with
  | zero s =>
    cases s with
    | negative => exact absurd hx plus
    | positive => rfl
  | notANumber | infinity | finite => rfl

theorem sub_zero (x : Float) : x - 0 = x := by
  rw [← shape_inj, shape_sub, shape_zero]
  conv_rhs => rw [← stored_shape]
  cases shape x with
  | zero s => cases s <;> rfl
  | notANumber | infinity | finite => rfl

end Simplex.Double
