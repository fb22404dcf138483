import Simplex.Proofs.Underflow
import Simplex.Proofs.Units

/-!
Overflow of doubles. A result is undefined just if an operand is, if opposite infinities meet in a
sum, or if a zero meets an infinity in a product: rounding and overflow never make a NaN of numbers.
-/
namespace Simplex.Double

open Float.Model (Format UnpackedFloat)
open Float.Model.UnpackedFloat (Sign pack unpack packComponents)

variable {x y z : Float} {u v : UnpackedFloat}

theorem isNaN_iff : x.isNaN = true ↔ shape x = .notANumber := Float.Model.UnpackedFloat.isNaN_iff

theorem isNaN_eq_false_iff : x.isNaN = false ↔ shape x ≠ .notANumber := by
  rw [← Bool.not_eq_true, isNaN_iff]

theorem isInf_iff : x.isInf = true ↔ ∃ s, shape x = .infinity s := by
  show (shape x).isInf = true ↔ _
  cases shape x <;> simp [UnpackedFloat.isInf]

/-! ### Storing -/

theorem of_unpack_packComponents_eq_nan (s : Sign) (exponent : BitVec 11) (mantissa : BitVec 52)
    (nan : unpack .binary64 (packComponents .binary64 s exponent mantissa) = .notANumber) :
    exponent = -1#11 := by
  unfold unpack at nan
  simp only [Float.Model.UnpackedFloat.unpackSign_packComponents,
    Float.Model.UnpackedFloat.unpackExponent_packComponents,
    Float.Model.UnpackedFloat.unpackMantissa_packComponents,
    Float.Model.UnpackedFloat.Sign.ofBitVec_toBitVec] at nan
  split at nan
  · assumption
  · split at nan
    · split at nan <;> cases nan
    · cases nan

/-- Storing makes no NaN: what is too large becomes an infinity. -/
theorem stored_finite_ne_nan (s : Sign) {m : Nat} (e : Int) (pos : 0 < m) :
    stored (.finite s m e pos) ≠ .notANumber := by
  have bias : ((Format.binary64.exponentBias : Nat) : Int) = 1023 := rfl
  unfold stored pack
  simp only [bias]
  intro nan
  split at nan
  · have infinite := stored_infinity s
    unfold stored pack at infinite
    rw [infinite] at nan
    cases nan
  · rename_i within
    split at nan
    · -- a normal double leaves a bit of its exponent clear
      have full := of_unpack_packComponents_eq_nan _ _ _ nan
      have field := congrArg BitVec.toNat full
      rw [BitVec.toNat_ofNat] at field
      change (e + 1023 + (52 : Nat)).toNat % 2 ^ 11 = 2047 at field
      change ¬ 2 ^ 11 ≤ (e + 1023 + (52 : Nat)).toNat + 1 at within
      omega
    · have full := of_unpack_packComponents_eq_nan _ _ _ nan
      exact absurd full (by decide)

theorem stored_eq_nan : stored u = .notANumber ↔ u = .notANumber := by
  constructor
  · intro nan
    cases u with
    | notANumber => rfl
    | infinity s => rw [stored_infinity] at nan; cases nan
    | zero s => rw [stored_zero] at nan; cases nan
    | finite s m e pos => exact absurd nan (stored_finite_ne_nan s e pos)
  · rintro rfl
    exact stored_nan

theorem roundWithAccuracy_ne_nan (s : Sign) (m : Nat) (e : Int)
    (a : Float.Model.UnpackedFloat.Accuracy) :
    UnpackedFloat.roundWithAccuracy .binary64 s m e a ≠ .notANumber := by
  unfold UnpackedFloat.roundWithAccuracy
  simp only
  split <;> simp

theorem normalize_ne_nan (mantissa : Int) (e : Int) (s : Sign) :
    UnpackedFloat.normalize .binary64 mantissa e s ≠ .notANumber := by
  unfold UnpackedFloat.normalize
  split
  · exact roundWithAccuracy_ne_nan _ _ _ _
  · simp
  · exact roundWithAccuracy_ne_nan _ _ _ _

/-! ### Operations -/

/-- A sum is undefined if a summand is, or if opposite infinities meet in it. -/
theorem isNaN_add : (x + y).isNaN = true ↔
    x.isNaN = true ∨ y.isNaN = true ∨ (x.isInf = true ∧ y = -x) := by
  rw [isNaN_iff, isNaN_iff, isNaN_iff, isInf_iff, shape_add, stored_eq_nan, ← shape_inj (x := y),
    shape_neg]
  cases shape x with
  | notANumber => simp [UnpackedFloat.add]
  | infinity s =>
    cases shape y with
    | infinity t => cases s <;> cases t <;> simp [UnpackedFloat.add, UnpackedFloat.neg] <;> rfl
    | notANumber | zero | finite => simp [UnpackedFloat.add, UnpackedFloat.neg]
  | zero s =>
    cases shape y with
    | zero t => by_cases same : (s == t) = true <;> simp [UnpackedFloat.add, same]
    | notANumber | infinity | finite => simp [UnpackedFloat.add]
  | finite s m e pos =>
    cases shape y with
    | finite t n f pos' => simp [UnpackedFloat.add, normalize_ne_nan]
    | notANumber | infinity | zero => simp [UnpackedFloat.add]

theorem isNaN_neg : (-x).isNaN = x.isNaN := by
  rw [Bool.eq_iff_iff, isNaN_iff, isNaN_iff, shape_neg]
  cases shape x <;> simp [UnpackedFloat.neg]

/-- A difference is undefined if an operand is, or if an infinity is taken from itself. -/
theorem isNaN_sub : (x - y).isNaN = true ↔
    x.isNaN = true ∨ y.isNaN = true ∨ (x.isInf = true ∧ y = x) := by
  have same : -y = -x ↔ y = x :=
    ⟨fun equal => by rw [← Binary64.neg_neg y, equal, Binary64.neg_neg], fun equal => by rw [equal]⟩
  rw [sub_eq_add, isNaN_add, isNaN_neg, same]

/-- A product is undefined if a factor is, or if one is infinite and the other is zero. -/
theorem isNaN_mul : (x * y).isNaN = true ↔ x.isNaN = true ∨ y.isNaN = true ∨
    (x.isInf = true ∧ (y == 0) = true) ∨ ((x == 0) = true ∧ y.isInf = true) := by
  rw [isNaN_iff, isNaN_iff, isNaN_iff, isInf_iff, isInf_iff, beq_zero_iff, beq_zero_iff, shape_mul,
    stored_eq_nan]
  cases shape x with
  | notANumber => simp [UnpackedFloat.mul]
  | infinity s | zero s => cases shape y <;> simp [UnpackedFloat.mul]
  | finite s m e pos =>
    cases shape y with
    | finite t n f pos' => simp [UnpackedFloat.mul, roundWithAccuracy_ne_nan]
    | notANumber | infinity | zero => simp [UnpackedFloat.mul]

theorem sum_append_singleton (xs : List Float) (x : Float) :
    Scalar.sum (xs ++ [x]) = Scalar.sum xs + x := by
  simp [Scalar.sum]

/-- A sum is undefined if a summand is, or if the running sum meets the opposite infinity. -/
theorem isNaN_sum (xs : List Float) : (Scalar.sum xs).isNaN = true ↔
    ∃ before x after, xs = before ++ x :: after ∧
      (x.isNaN = true ∨ ((Scalar.sum before).isInf = true ∧ x = -Scalar.sum before)) := by
  induction xs using List.reverseRecOn with
  | nil =>
    constructor
    · intro nan
      exact absurd nan (by decide)
    · rintro ⟨before, x, after, split, _⟩
      simp at split
  | append_singleton xs y ih =>
    rw [sum_append_singleton, isNaN_add, ih]
    constructor
    · rintro (⟨before, x, after, rfl, undefined⟩ | last)
      · exact ⟨before, x, after ++ [y], by simp, undefined⟩
      · exact ⟨xs, y, [], rfl, last⟩
    · rintro ⟨before, x, after, split, undefined⟩
      rcases List.eq_nil_or_concat after with rfl | ⟨rest, z, rfl⟩
      · obtain ⟨rfl, own⟩ := List.append_inj' split rfl
        cases own
        exact .inr undefined
      · rw [List.concat_eq_append, ← List.cons_append, ← List.append_assoc] at split
        obtain ⟨rfl, _⟩ := List.append_inj' split rfl
        exact .inl ⟨before, x, rest, rfl, undefined⟩

/-! ### The order -/

theorem shape_le_iff (hu : u ≠ .notANumber) (hv : v ≠ .notANumber) :
    u.le v = true ↔ ¬ v.lt u = true := by
  unfold UnpackedFloat.le UnpackedFloat.lt
  cases u with
  | notANumber => exact absurd rfl hu
  | infinity s =>
    cases v with
    | notANumber => exact absurd rfl hv
    | infinity t => cases s <;> cases t <;> decide
    | zero t => cases s <;> simp [UnpackedFloat.compare]
    | finite t => cases s <;> cases t <;> simp [UnpackedFloat.compare]
  | zero s =>
    cases v with
    | notANumber => exact absurd rfl hv
    | infinity t => cases t <;> simp [UnpackedFloat.compare]
    | zero t => simp [UnpackedFloat.compare]
    | finite t => cases t <;> simp [UnpackedFloat.compare]
  | finite s m e =>
    cases v with
    | notANumber => exact absurd rfl hv
    | infinity t => cases s <;> cases t <;> simp [UnpackedFloat.compare]
    | zero t => cases s <;> simp [UnpackedFloat.compare]
    | finite t n f =>
      rw [UnpackedFloat.compare.eq_def, UnpackedFloat.compare.eq_def]
      have exponents : compare f e = (compare e f).swap := Std.OrientedCmp.eq_swap
      have mantissas : compare n m = (compare m n).swap := Std.OrientedCmp.eq_swap
      cases s <;> cases t <;> simp only [exponents, mantissas] <;>
        cases compare e f <;> cases compare m n <;> decide

theorem le_iff : x ≤ y ↔ (shape x).le (shape y) = true := by
  show decide _ = true ↔ _
  rw [decide_eq_true_iff]
  rfl

/-- A number is at most another one just if the other is not below it. -/
theorem le_iff_not_lt (hx : x.isNaN = false) : x ≤ y ↔ y.isNaN = false ∧ ¬ y < x := by
  rw [isNaN_eq_false_iff] at hx ⊢
  rw [le_iff, lt_iff]
  by_cases nan : shape y = .notANumber
  · rw [nan]
    cases shape x <;> simp [UnpackedFloat.le, UnpackedFloat.compare]
  · rw [shape_le_iff hx nan]
    simp [nan]

theorem isNaN_of_lt (below : x < y) : x.isNaN = false ∧ y.isNaN = false := by
  obtain ⟨hx, hy, _⟩ := lt_iff_place.mp below
  exact ⟨isNaN_eq_false_iff.mpr hx, isNaN_eq_false_iff.mpr hy⟩

/-- A number that is not below a bound is above all that is below the bound. -/
theorem lt_of_lt_of_not_lt (below : x < y) (above : ¬ z < y) (number : z.isNaN = false) :
    x < z := by
  rw [isNaN_eq_false_iff] at number
  obtain ⟨hx, hy, placed⟩ := lt_iff_place.mp below
  rw [lt_iff_place] at above ⊢
  refine ⟨hx, number, placed.trans_le (not_lt.mp fun lower => above ⟨number, hy, lower⟩)⟩

theorem lt_of_lt_of_le (below : x < y) (above : y ≤ z) : x < z := by
  obtain ⟨number, notBelow⟩ := (le_iff_not_lt (isNaN_of_lt below).2).mp above
  exact lt_of_lt_of_not_lt below notBelow number

/-- Only infinity is positive without being finite, and nothing is above it. -/
theorem isFinite_of_lt (positive : 0 < x) (below : x < y) : x.isFinite = true := by
  rw [lt_iff] at positive below
  rw [isFinite_eq]
  cases same : shape x with
  | notANumber =>
    rw [same] at below
    simp [shape_lt_iff] at below
  | infinity s =>
    rw [same] at positive below
    rw [shape_zero] at positive
    cases s with
    | negative => simp [UnpackedFloat.lt, UnpackedFloat.compare] at positive
    | positive =>
      have top : ∀ v, (UnpackedFloat.infinity .positive).lt v = false := by
        intro v
        cases v with
        | infinity t => cases t <;> rfl
        | _ => rfl
      rw [top] at below
      cases below
  | zero | finite => rfl

end Simplex.Double
