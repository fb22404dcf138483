import Simplex.Decimal.Printer
import Simplex.Proofs.Double

/-!
Units of doubles. The bits of a finite double give its magnitude as a whole number of units, and the
double of these units is the magnitude again.
-/
namespace Simplex.Binary64

open Float.Model (Format UnpackedFloat)
open Float.Model.UnpackedFloat (Sign unpack unpackMantissa unpackExponent unpackSign)
open Double (shape stored)

variable {x : Float}

/-- The exponent field of a double. -/
def exponentField (x : Float) : Nat := x.toBits.toNat / hidden % 2048

/-- The fraction field of a double. -/
def fractionField (x : Float) : Nat := x.toBits.toNat % hidden

theorem units_eq (x : Float) : units x =
    if exponentField x = 0 then fractionField x
    else (hidden + fractionField x) * 2 ^ (exponentField x - 1) := rfl

theorem fractionField_lt (x : Float) : fractionField x < hidden := Nat.mod_lt _ (by decide)

theorem exponentField_lt (x : Float) : exponentField x < 2048 := Nat.mod_lt _ (by decide)

/-! ### Bits and shapes -/

theorem toNat_unpackExponent (bits : UInt64) :
    (@unpackExponent .binary64 bits.toBitVec).toNat = bits.toNat / hidden % 2048 := by
  unfold unpackExponent
  rw [BitVec.toNat_cast, BitVec.extractLsb_toNat, Nat.shiftRight_eq_div_pow, UInt64.toNat_toBitVec]
  rfl

theorem toNat_unpackMantissa (bits : UInt64) :
    (@unpackMantissa .binary64 bits.toBitVec).toNat = bits.toNat % hidden := by
  unfold unpackMantissa
  rw [BitVec.toNat_cast, BitVec.extractLsb_toNat, Nat.shiftRight_zero, UInt64.toNat_toBitVec]
  rfl

theorem toNat_unpackSign (bits : UInt64) :
    (@unpackSign .binary64 bits.toBitVec).toNat = bits.toNat / 2 ^ 63 := by
  have bound := bits.toNat_lt
  unfold unpackSign
  rw [BitVec.toNat_cast, BitVec.extractLsb_toNat, Nat.shiftRight_eq_div_pow, UInt64.toNat_toBitVec]
  show bits.toNat / 2 ^ 63 % 2 ^ 1 = _
  omega

theorem sign_eq (bits : UInt64) : Sign.ofBitVec (@unpackSign .binary64 bits.toBitVec) =
    if 2 ^ 63 ≤ bits.toNat then .negative else .positive := by
  have clear : @unpackSign .binary64 bits.toBitVec = 0#1 ↔ ¬ 2 ^ 63 ≤ bits.toNat := by
    rw [BitVec.toNat_eq, toNat_unpackSign]
    show bits.toNat / 2 ^ 63 = 0 ↔ _
    omega
  unfold Sign.ofBitVec
  by_cases set : 2 ^ 63 ≤ bits.toNat
  · rw [if_neg fun zero => clear.mp zero set, if_pos set]
  · rw [if_pos (clear.mpr set), if_neg set]

/-- Without its sign bit, a double stands for its magnitude. -/
theorem unpack_abs {bits magnitude : UInt64} (same : magnitude.toNat = bits.toNat % 2 ^ 63) :
    unpack .binary64 magnitude.toBitVec = (unpack .binary64 bits.toBitVec).abs := by
  have mantissa : @unpackMantissa .binary64 magnitude.toBitVec =
      @unpackMantissa .binary64 bits.toBitVec := by
    rw [BitVec.toNat_eq, toNat_unpackMantissa, toNat_unpackMantissa, same]
    show bits.toNat % 2 ^ 63 % 2 ^ 52 = bits.toNat % 2 ^ 52
    omega
  have exponent : @unpackExponent .binary64 magnitude.toBitVec =
      @unpackExponent .binary64 bits.toBitVec := by
    rw [BitVec.toNat_eq, toNat_unpackExponent, toNat_unpackExponent, same]
    show bits.toNat % 2 ^ 63 / 2 ^ 52 % 2048 = bits.toNat / 2 ^ 52 % 2048
    omega
  have sign : Sign.ofBitVec (@unpackSign .binary64 magnitude.toBitVec) = .positive := by
    rw [sign_eq, same, if_neg (by omega)]
  unfold unpack
  simp only [mantissa, exponent, sign]
  split
  · split <;> rfl
  · split
    · split <;> rfl
    · rfl

/-- The exponent field of a finite double is not full. -/
theorem exponentField_of_isFinite (finite : x.isFinite = true) : exponentField x < 2047 := by
  by_contra full
  have field : exponentField x = 2047 := by have := exponentField_lt x; omega
  have exponent : @unpackExponent .binary64 x.toBits.toBitVec = -1#_ := by
    rw [BitVec.toNat_eq, toNat_unpackExponent]
    exact field
  rw [Double.isFinite_eq] at finite
  unfold shape Float.Model.unpack unpack at finite
  change UnpackedFloat.isFinite
    (if @unpackExponent .binary64 x.toBits.toBitVec = _ then _ else _) = true at finite
  rw [if_pos exponent] at finite
  split at finite <;> cases finite

/-! ### Units -/

theorem hidden_eq : hidden = 2 ^ 52 := rfl

theorem units_of_exponentField_pos (normal : exponentField x ≠ 0) :
    units x = (hidden + fractionField x) * 2 ^ (exponentField x - 1) := by
  rw [units_eq, if_neg normal]

theorem log2_hidden_add (x : Float) : (hidden + fractionField x).log2 = 52 := by
  have bound := fractionField_lt x
  rw [hidden_eq] at bound ⊢
  rw [Nat.log2_eq_iff (by omega)]
  omega

theorem units_lt (finite : x.isFinite = true) {n : Nat} (top : 2098 ≤ n) :
    units x < Nat.pow 2 n := by
  have fraction := fractionField_lt x
  have exponent := exponentField_of_isFinite finite
  rw [hidden_eq] at fraction
  have below : units x < 2 ^ (53 + (exponentField x - 1)) := by
    by_cases normal : exponentField x = 0
    · rw [units_eq, if_pos normal, normal]
      omega
    · rw [units_of_exponentField_pos normal, hidden_eq, Nat.pow_add]
      exact Nat.mul_lt_mul_of_pos_right (by omega) (Nat.two_pow_pos _)
  exact below.trans_le (Nat.pow_le_pow_right (by decide) (by omega))

theorem log2_units (normal : exponentField x ≠ 0) :
    (units x).log2 - 52 = exponentField x - 1 := by
  rw [units_of_exponentField_pos normal,
    Double.log2_mul_two_pow (by have := hidden_eq; omega), log2_hidden_add]
  omega

/-- The units of a double have 53 significant bits at most. -/
theorem two_pow_dvd_units (x : Float) : 2 ^ ((units x).log2 - 52) ∣ units x := by
  by_cases normal : exponentField x = 0
  · have fraction := fractionField_lt x
    have small : (units x).log2 - 52 = 0 := by
      rw [units_eq, if_pos normal]
      by_cases zero : fractionField x = 0
      · rw [zero]; rfl
      · have := (Nat.log2_lt zero).mpr fraction
        omega
    rw [small]
    exact Nat.one_dvd _
  · rw [log2_units normal, units_of_exponentField_pos normal]
    exact Nat.dvd_mul_left _ _

/-- The bits of a finite double without the sign are those that its units are written with. -/
theorem ofUnits_eq (finite : x.isFinite = true) :
    ofUnits (units x) = Float.ofBits (x.toBits.toNat % 2 ^ 63).toUInt64 := by
  have fraction := fractionField_lt x
  have limit := units_lt finite (Nat.le_refl 2098)
  have below : ¬ Nat.pow 2 2098 ≤ units x := fun above =>
    Nat.lt_irrefl _ (Nat.lt_of_lt_of_le limit above)
  have fields : exponentField x * hidden + fractionField x = x.toBits.toNat % 2 ^ 63 := by
    show x.toBits.toNat / 2 ^ 52 % 2048 * 2 ^ 52 + x.toBits.toNat % 2 ^ 52 = _
    omega
  rw [← fields]
  unfold ofUnits
  by_cases normal : exponentField x = 0
  · rw [units_eq, if_pos normal, if_pos fraction, normal, zero_mul, zero_add]
  · have positive : 0 < 2 ^ (exponentField x - 1) := Nat.two_pow_pos _
    have big : ¬ units x < hidden := by
      rw [units_of_exponentField_pos normal]
      exact not_lt.mpr ((Nat.le_add_right _ _).trans (Nat.le_mul_of_pos_right _ positive))
    have whole : units x / Nat.pow 2 (exponentField x - 1) = hidden + fractionField x := by
      rw [units_of_exponentField_pos normal]
      exact Nat.mul_div_cancel _ positive
    have carried : (exponentField x - 1) * hidden + (hidden + fractionField x) =
        exponentField x * hidden + fractionField x := by
      obtain ⟨e, exponent⟩ := Nat.exists_eq_succ_of_ne_zero normal
      rw [exponent, Nat.succ_sub_one, Nat.succ_mul, Nat.add_assoc]
    rw [if_neg big, if_neg below]
    simp only [log2_units normal, whole, carried]

/-- The double of the units of a finite double is its magnitude. -/
theorem ofUnits_units (finite : x.isFinite = true) : ofUnits (units x) = x.abs := by
  have clear : (x.toBits.toNat % 2 ^ 63).toUInt64.toNat = x.toBits.toNat % 2 ^ 63 := by
    show x.toBits.toNat % 2 ^ 63 % 2 ^ 64 = _
    omega
  rw [ofUnits_eq finite, ← Double.shape_inj, Double.shape_abs]
  exact congrArg stored (unpack_abs clear)

/-! ### Signs -/

theorem shape_eq (x : Float) : shape x = unpack .binary64 x.toBits.toBitVec := rfl

theorem isNegative_iff : isNegative x = true ↔ 2 ^ 63 ≤ x.toBits.toNat := decide_eq_true_iff

/-- A set sign bit makes a shape the negation of its magnitude, a clear one the magnitude. -/
theorem abs_shape (x : Float) :
    (shape x).abs = if isNegative x then (shape x).neg else shape x := by
  have sign := sign_eq x.toBits
  simp only [← isNegative_iff] at sign
  rw [shape_eq]
  unfold unpack
  simp only [sign]
  cases isNegative x <;>
  · split
    · split <;> rfl
    · split
      · split <;> rfl
      · rfl

theorem shape_abs (x : Float) : shape x.abs = (shape x).abs := by
  rw [Double.shape_abs, abs_shape]
  split
  · rw [← Double.shape_neg, Double.stored_shape]
  · rw [Double.stored_shape]

/-- A double is its magnitude, with a minus if its sign bit is set. -/
theorem abs_eq (x : Float) : x.abs = if isNegative x then -x else x := by
  rw [← Double.shape_inj, shape_abs, abs_shape]
  split
  · rw [Double.shape_neg]
  · rfl

theorem neg_neg (x : Float) : - -x = x := by
  rw [← Double.shape_inj, Double.shape_neg, Double.shape_neg]
  cases shape x with
  | notANumber => rfl
  | infinity s | zero s | finite s => cases s <;> rfl

/-- A double is its magnitude with its sign. -/
theorem eq_abs (x : Float) : x = if isNegative x then -x.abs else x.abs := by
  have magnitude := abs_eq x
  split
  · rename_i negative
    rw [magnitude, if_pos negative, neg_neg]
  · rename_i positive
    rw [magnitude, if_neg positive]

theorem abs_abs (x : Float) : x.abs.abs = x.abs := by
  rw [← Double.shape_inj, shape_abs, shape_abs]
  cases shape x <;> rfl

theorem isFinite_abs (x : Float) : x.abs.isFinite = x.isFinite := by
  rw [Double.isFinite_eq, Double.isFinite_eq, shape_abs]
  cases shape x <;> rfl

end Simplex.Binary64
