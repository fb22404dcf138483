import Simplex.Proofs.Undefined
import Mathlib

/-!
Doubles. Each one has a shape: not a number, an infinity, a signed zero, or a finite number with sign,
mantissa and exponent. On shapes the operations are given by cases, and from them follow the laws
that unit columns rest on: only sums and products of finite numbers that are not zero are rounded,
and a product with one is not changed by it.
-/
namespace Simplex.Double

open Float.Model (Format UnpackedFloat totalExponent)
open Float.Model.UnpackedFloat (Sign ExtendedMantissa Accuracy pack unpack packComponents
  roundWithAccuracy shiftToTargetExponent shiftToExponent)

/-- What a double stands for. -/
def shape (x : Float) : UnpackedFloat := x.toModel.unpack

/-- What a result stands for once it is stored in a double. -/
def stored (u : UnpackedFloat) : UnpackedFloat := unpack .binary64 (pack .binary64 u)

theorem shape_inj {x y : Float} : shape x = shape y ↔ x = y := by
  constructor
  · intro same
    have bits := (Float.Model.UnpackedFloat.unpack_inj_of_valid x.toModel.valid
      y.toModel.valid).mp same
    exact Float.toBits_inj.mp (UInt64.toBitVec_inj.mp bits)
  · rintro rfl; rfl

@[simp] theorem stored_zero (s : Sign) : stored (.zero s) = .zero s :=
  Float.Model.UnpackedFloat.unpack_packedZero

@[simp] theorem stored_nan : stored .notANumber = .notANumber :=
  Float.Model.UnpackedFloat.unpack_packedNaN

@[simp] theorem stored_shape (x : Float) : stored (shape x) = shape x := by
  unfold stored shape Float.Model.unpack
  rw [Float.Model.UnpackedFloat.pack_unpack_of_valid x.toModel.valid]

section Operations

variable (x y : Float)

theorem shape_add : shape (x + y) = stored (.add .binary64 (shape x) (shape y)) := rfl

theorem shape_sub : shape (x - y) = stored (.sub .binary64 (shape x) (shape y)) := rfl

theorem shape_mul : shape (x * y) = stored (.mul .binary64 (shape x) (shape y)) := rfl

theorem shape_div : shape (x / y) = stored (.div .binary64 (shape x) (shape y)) := rfl

theorem shape_abs : shape x.abs = stored (.abs (shape x)) := rfl

theorem isFinite_eq : x.isFinite = (shape x).isFinite := rfl

theorem beq_eq : (x == y) = (shape x).beq (shape y) := rfl

theorem lt_iff : x < y ↔ (shape x).lt (shape y) = true := by
  show decide _ = true ↔ _
  rw [decide_eq_true_iff]
  rfl

end Operations

@[simp] theorem shape_zero : shape 0 = .zero .positive := rfl

theorem shape_one : shape 1 = .finite .positive (2 ^ 52) (-52) (by decide) := rfl

/-! ### Special doubles -/

/-- Two shapes stand for the same number; zeros of both signs do. -/
def Alike (u v : UnpackedFloat) : Prop := u = v ∨ ∃ s t, u = .zero s ∧ v = .zero t

theorem Alike.trans {u v w : UnpackedFloat} (h : Alike u v) (k : Alike v w) : Alike u w := by
  rcases h with rfl | ⟨s, t, rfl, rfl⟩
  · exact k
  · rcases k with rfl | ⟨_, t, _, rfl⟩
    · exact .inr ⟨_, _, rfl, rfl⟩
    · exact .inr ⟨_, _, rfl, rfl⟩

theorem Alike.zero {u : UnpackedFloat} {s : Sign} (h : Alike u (.zero s)) : ∃ t, u = .zero t := by
  rcases h with rfl | ⟨t, _, rfl, _⟩
  · exact ⟨_, rfl⟩
  · exact ⟨t, rfl⟩

theorem beq_iff {x y : Float} :
    (x == y) = true ↔ shape x ≠ .notANumber ∧ Alike (shape x) (shape y) := by
  rw [beq_eq, Float.Model.UnpackedFloat.beq_iff_ne_notANumber_and_eq]
  constructor
  · rintro ⟨number, _, equal | ⟨hx, hy⟩ | ⟨hx, hy⟩⟩
    · exact ⟨number, .inl equal⟩
    · exact ⟨number, .inr ⟨_, _, hx, hy⟩⟩
    · exact ⟨number, .inr ⟨_, _, hx, hy⟩⟩
  · rintro ⟨number, equal | ⟨s, t, hx, hy⟩⟩
    · exact ⟨number, equal ▸ number, .inl equal⟩
    · rw [hx, hy]
      cases s <;> cases t <;> simp

theorem beq_of_alike {x y d : Float} (same : Alike (shape y) (shape x)) (equal : (x == d) = true) :
    (y == d) = true := by
  obtain ⟨number, alike⟩ := beq_iff.mp equal
  refine beq_iff.mpr ⟨?_, same.trans alike⟩
  rcases same with equal | ⟨s, _, zero, _⟩
  · rw [equal]
    exact number
  · simp [zero]

theorem beq_zero_iff {x : Float} : (x == 0) = true ↔ ∃ s, shape x = .zero s := by
  rw [beq_iff, shape_zero]
  constructor
  · rintro ⟨_, alike⟩; exact alike.zero
  · rintro ⟨s, h⟩; exact ⟨by simp [h], .inr ⟨_, _, h, rfl⟩⟩

theorem beq_one_iff {x : Float} : (x == 1) = true ↔ x = 1 := by
  constructor
  · intro equal
    obtain ⟨_, same | ⟨_, _, _, zero⟩⟩ := beq_iff.mp equal
    · exact shape_inj.mp same
    · cases zero
  · rintro rfl; rfl

theorem isUndefined_iff {x : Float} : Scalar.isUndefined x = true ↔ shape x = .notANumber := by
  have differs : Scalar.isUndefined x = true ↔ ¬ (x == x) = true := by
    show (!(x == x)) = true ↔ _
    simp
  rw [differs, beq_iff]
  simp [Alike]

theorem isUndefined_eq_isNaN (x : Float) : Scalar.isUndefined x = x.isNaN := by
  rw [Bool.eq_iff_iff, isUndefined_iff]
  exact Float.Model.UnpackedFloat.isNaN_iff.symm

theorem isFinite_iff {x : Float} : x.isFinite = true ↔ x.isNaN = false ∧ x.isInf = false := by
  show (shape x).isFinite = true ↔ (shape x).isNaN = false ∧ (shape x).isInf = false
  cases shape x <;> simp [UnpackedFloat.isFinite, UnpackedFloat.isNaN, UnpackedFloat.isInf]

/-! ### Operations with zeros -/

variable {x y z : Float}

/-- An operation that keeps shapes up to the sign of zero does so on doubles. -/
theorem alike_stored {f : UnpackedFloat → UnpackedFloat} (keeps : ∀ u, Alike (f u) u)
    (x : Float) : Alike (stored (f (shape x))) (shape x) := by
  rcases keeps (shape x) with same | ⟨s, t, hs, ht⟩
  · rw [same, stored_shape]
    exact .inl rfl
  · rw [hs, ht, stored_zero]
    exact .inr ⟨s, t, rfl, rfl⟩

theorem alike_add_zero {s : Sign} (zero : shape z = .zero s) :
    Alike (shape (x + z)) (shape x) := by
  rw [shape_add, zero]
  refine alike_stored (f := fun u => .add .binary64 u (.zero s)) (fun u => ?_) x
  cases u with
  | zero t => cases t <;> cases s <;> exact .inr ⟨_, _, rfl, rfl⟩
  | notANumber | infinity | finite => exact .inl rfl

theorem alike_zero_add {s : Sign} (zero : shape z = .zero s) :
    Alike (shape (z + x)) (shape x) := by
  rw [shape_add, zero]
  refine alike_stored (f := fun u => .add .binary64 (.zero s) u) (fun u => ?_) x
  cases u with
  | zero t => cases t <;> cases s <;> exact .inr ⟨_, _, rfl, rfl⟩
  | notANumber | infinity | finite => exact .inl rfl

theorem alike_sub_zero {s : Sign} (zero : shape z = .zero s) :
    Alike (shape (x - z)) (shape x) := by
  rw [shape_sub, zero]
  refine alike_stored (f := fun u => .sub .binary64 u (.zero s)) (fun u => ?_) x
  cases u with
  | zero t => cases t <;> cases s <;> exact .inr ⟨_, _, rfl, rfl⟩
  | notANumber | infinity | finite => exact .inl rfl

/-- The difference of equal numbers is zero, of equal infinities undefined. -/
theorem sub_alike (alike : Alike (shape x) (shape y)) :
    (∃ s, shape (x - y) = .zero s) ∨ shape (x - y) = .notANumber := by
  rw [shape_sub]
  rcases alike with same | ⟨s, t, hx, hy⟩
  · rw [← same]
    cases shape x with
    | notANumber => exact .inr stored_nan
    | infinity s => cases s <;> exact .inr stored_nan
    | zero s => cases s <;> exact .inl ⟨_, stored_zero _⟩
    | finite s m e pos =>
      refine .inl ⟨.positive, ?_⟩
      have cancel : UnpackedFloat.sub .binary64 (.finite s m e pos) (.finite s m e pos) =
          .zero .positive := by
        simp [UnpackedFloat.sub, UnpackedFloat.normalize]
      rw [cancel, stored_zero]
  · rw [hx, hy]
    cases s <;> cases t <;> exact .inl ⟨_, stored_zero _⟩

theorem zero_mul_of_isFinite {s : Sign} (zero : shape z = .zero s) (finite : x.isFinite = true) :
    ∃ t, shape (z * x) = .zero t := by
  rw [isFinite_eq] at finite
  rw [shape_mul, zero]
  cases h : shape x with
  | notANumber | infinity => rw [h] at finite; cases finite
  | zero | finite => exact ⟨_, stored_zero _⟩

theorem zero_mul_of_not_isFinite {s : Sign} (zero : shape z = .zero s)
    (infinite : x.isFinite = false) : shape (z * x) = .notANumber := by
  rw [isFinite_eq] at infinite
  rw [shape_mul, zero]
  cases h : shape x with
  | notANumber | infinity => exact stored_nan
  | zero | finite => rw [h] at infinite; cases infinite

theorem mul_zero {s : Sign} (zero : shape z = .zero s) :
    (∃ t, shape (x * z) = .zero t) ∨ shape (x * z) = .notANumber := by
  rw [shape_mul, zero]
  cases shape x with
  | notANumber | infinity => exact .inr stored_nan
  | zero | finite => exact .inl ⟨_, stored_zero _⟩

theorem zero_div {s : Sign} (zero : shape z = .zero s) (nonzero : (x == 0) = false)
    (finite : x.isFinite = true) : ∃ t, shape (z / x) = .zero t := by
  rw [isFinite_eq] at finite
  rw [shape_div, zero]
  cases h : shape x with
  | notANumber | infinity => rw [h] at finite; cases finite
  | zero t =>
    have equal := beq_zero_iff.mpr ⟨t, h⟩
    rw [nonzero] at equal
    cases equal
  | finite => exact ⟨_, stored_zero _⟩

/-- A quotient by an infinity or by NaN is zero or undefined. -/
theorem div_of_not_isFinite (infinite : y.isFinite = false) :
    (∃ t, shape (x / y) = .zero t) ∨ shape (x / y) = .notANumber := by
  rw [isFinite_eq] at infinite
  rw [shape_div]
  cases h : shape y with
  | notANumber => cases shape x <;> exact .inr stored_nan
  | infinity s =>
    cases shape x with
    | notANumber | infinity => exact .inr stored_nan
    | zero | finite => exact .inl ⟨_, stored_zero _⟩
  | zero | finite => rw [h] at infinite; cases infinite

/-! ### Undefined operands -/

/-- An operation that gives NaN for an operand NaN does so on doubles. -/
theorem nan_stored {op : UnpackedFloat → UnpackedFloat → UnpackedFloat}
    (left : ∀ v, op .notANumber v = .notANumber) (right : ∀ u, op u .notANumber = .notANumber)
    (nan : shape x = .notANumber ∨ shape y = .notANumber) :
    stored (op (shape x) (shape y)) = .notANumber := by
  rcases nan with nan | nan
  · rw [nan, left, stored_nan]
  · rw [nan, right, stored_nan]

theorem nan_add (nan : shape x = .notANumber ∨ shape y = .notANumber) :
    shape (x + y) = .notANumber :=
  nan_stored (fun _ => rfl) (fun u => by cases u <;> rfl) nan

theorem nan_sub (nan : shape x = .notANumber ∨ shape y = .notANumber) :
    shape (x - y) = .notANumber :=
  nan_stored (fun _ => rfl) (fun u => by cases u <;> rfl) nan

theorem nan_mul (nan : shape x = .notANumber ∨ shape y = .notANumber) :
    shape (x * y) = .notANumber :=
  nan_stored (fun _ => rfl) (fun u => by cases u <;> rfl) nan

theorem nan_div (nan : shape x = .notANumber ∨ shape y = .notANumber) :
    shape (x / y) = .notANumber :=
  nan_stored (fun _ => rfl) (fun u => by cases u <;> rfl) nan

/-! ### A product with one -/

theorem toNat_implicit (b : BitVec 52) : (1#1 ++ b).toNat = 2 ^ 52 + b.toNat := by
  rw [BitVec.toNat_append, ← Nat.shiftLeft_add_eq_or_of_lt b.isLt]
  rfl

/-- A finite double has a mantissa of 53 bits, or of fewer at the least exponent. -/
theorem unpack_finite {bits : BitVec Format.binary64.numBits} {s : Sign} {m : Nat} {e : Int}
    {pos : 0 < m} (h : unpack .binary64 bits = .finite s m e pos) :
    m < 2 ^ 53 ∧ -1074 ≤ e ∧ (2 ^ 52 ≤ m ∨ e = -1074) := by
  have bias : ((Format.binary64.exponentBias : Nat) : Int) = 1023 := rfl
  have bound := (Float.Model.UnpackedFloat.unpackMantissa bits).isLt
  unfold unpack at h
  simp only [bias] at h bound
  split at h
  · split at h <;> cases h
  · split at h
    · -- no implicit bit, and the least exponent
      rename_i subnormal
      split at h
      · cases h
      · simp only [UnpackedFloat.finite.injEq] at h
        obtain ⟨_, rfl, rfl, _⟩ := h
        rw [subnormal]
        simp only [BitVec.toNat_zero, Nat.cast_zero]
        exact ⟨by omega, by omega, .inr (by omega)⟩
    · rename_i normal
      simp only [UnpackedFloat.finite.injEq] at h
      obtain ⟨_, rfl, rfl, _⟩ := h
      have positive : 0 < (Float.Model.UnpackedFloat.unpackExponent bits).toNat :=
        Nat.pos_of_ne_zero fun zero => normal (BitVec.eq_of_toNat_eq (by simpa using zero))
      rw [toNat_implicit]
      exact ⟨by omega, by omega, .inl (by omega)⟩

theorem targetExponent_eq (total : Int) :
    Format.binary64.targetExponent total = max (total - 53) (-1074) := rfl

/-- A finite double has the exponent that rounding would give it. -/
theorem targetExponent_of_shape {s : Sign} {m : Nat} {e : Int} {pos : 0 < m}
    (h : shape x = .finite s m e pos) :
    Format.binary64.targetExponent (totalExponent m e) = e := by
  obtain ⟨narrow, least, normal⟩ := unpack_finite h
  have below : m.log2 < 53 := (Nat.log2_lt pos.ne').mpr narrow
  rw [targetExponent_eq, totalExponent]
  rcases normal with wide | rfl
  · have above : 52 ≤ m.log2 := (Nat.le_log2 pos.ne').mpr wide
    omega
  · omega

theorem log2_mul_two_pow {m : Nat} (pos : 0 < m) (n : Nat) : (m * 2 ^ n).log2 = m.log2 + n := by
  induction n with
  | zero => simp
  | succ n ih =>
    have shifted : m * 2 ^ (n + 1) = 2 * (m * 2 ^ n) := by ring
    have nonzero : m * 2 ^ n ≠ 0 := (Nat.mul_pos pos (Nat.two_pow_pos n)).ne'
    rw [shifted, Nat.log2_two_mul nonzero, ih]
    rfl

/-- Shifting zeros out of a mantissa leaves no rest. -/
theorem shiftRight_exact (m n : Nat) :
    ExtendedMantissa.ofMantissaAndAccuracy (m * 2 ^ n) .exact >>> n = ⟨m, false, false⟩ := by
  show Nat.repeat ExtendedMantissa.shiftRightOne n ⟨m * 2 ^ n, false, false⟩ = _
  induction n generalizing m with
  | zero => simp [Nat.repeat]
  | succ n ih =>
    have shifted : m * 2 ^ (n + 1) = m * 2 * 2 ^ n := by ring
    rw [Nat.repeat, shifted, ih]
    simp [ExtendedMantissa.shiftRightOne]

theorem shiftToTargetExponent_exact {m : Nat} {e : Int} (pos : 0 < m)
    (target : Format.binary64.targetExponent (totalExponent m e) = e) (n : Nat) :
    shiftToTargetExponent .binary64 (m * 2 ^ n) (e - n) .exact = (⟨m, false, false⟩, e) := by
  have total : totalExponent (m * 2 ^ n) (e - n) = totalExponent m e := by
    unfold totalExponent
    rw [log2_mul_two_pow pos]
    push_cast
    ring
  have back : (e - (e - n)).toNat = n := by omega
  have restored : e - n + n = e := by ring
  unfold shiftToTargetExponent shiftToExponent
  simp only [total, target, back, shiftRight_exact, restored]

/-- A mantissa with zeros behind it is rounded to itself. -/
theorem round_exact {s : Sign} {m : Nat} {e : Int} (pos : 0 < m)
    (target : Format.binary64.targetExponent (totalExponent m e) = e) (n : Nat) :
    roundWithAccuracy .binary64 s (m * 2 ^ n) (e - n) .exact = .finite s m e pos := by
  have again := shiftToTargetExponent_exact pos target 0
  rw [pow_zero, mul_one, Nat.cast_zero, sub_zero] at again
  unfold roundWithAccuracy
  simp only [shiftToTargetExponent_exact pos target, ExtendedMantissa.roundedMantissa,
    ExtendedMantissa.accuracy, Accuracy.roundToNearestEven, again]
  rw [dif_neg pos.ne']

theorem mul_one_shape (x : Float) :
    UnpackedFloat.mul .binary64 (shape x) (shape 1) = shape x := by
  rw [shape_one]
  cases h : shape x with
  | notANumber => rfl
  | infinity s | zero s => cases s <;> rfl
  | finite s m e pos =>
    -- the mantissa of one is a power of two, so the product has the mantissa with zeros behind it
    refine Eq.trans ?_ (round_exact pos (targetExponent_of_shape h) 52)
    cases s <;> rfl

theorem mul_one (x : Float) : x * 1 = x := by
  rw [← shape_inj, shape_mul, mul_one_shape, stored_shape]

/-! ### The order -/

/-- The place of a shape in the order; what is not a number has none. -/
def place : UnpackedFloat → ℤ ×ₗ ℤ ×ₗ ℤ
  | .infinity .negative => toLex (-2, toLex (0, 0))
  | .finite .negative m e _ => toLex (-1, toLex (-e, -m))
  | .zero _ | .notANumber => toLex (0, toLex (0, 0))
  | .finite .positive m e _ => toLex (1, toLex (e, m))
  | .infinity .positive => toLex (2, toLex (0, 0))

theorem shape_lt_iff (u v : UnpackedFloat) :
    u.lt v = true ↔ u ≠ .notANumber ∧ v ≠ .notANumber ∧ place u < place v := by
  unfold UnpackedFloat.lt
  cases u with
  | notANumber => simp [UnpackedFloat.compare]
  | infinity s =>
    cases v with
    | notANumber => cases s <;> simp [UnpackedFloat.compare]
    | infinity t =>
      have below : compare Sign.negative Sign.positive = .lt := rfl
      cases s <;> cases t <;> simp [UnpackedFloat.compare, place, Prod.Lex.lt_iff, below]
    | zero t => cases s <;> simp [UnpackedFloat.compare, place, Prod.Lex.lt_iff]
    | finite t =>
      cases s <;> cases t <;> simp [UnpackedFloat.compare, place, Prod.Lex.lt_iff]
  | zero s =>
    cases v with
    | notANumber => simp [UnpackedFloat.compare]
    | infinity t => cases t <;> simp [UnpackedFloat.compare, place, Prod.Lex.lt_iff]
    | zero t => simp [UnpackedFloat.compare, place]
    | finite t => cases t <;> simp [UnpackedFloat.compare, place, Prod.Lex.lt_iff]
  | finite s =>
    cases v with
    | notANumber => cases s <;> simp [UnpackedFloat.compare]
    | infinity t =>
      cases s <;> cases t <;> simp [UnpackedFloat.compare, place, Prod.Lex.lt_iff]
    | zero t => cases s <;> simp [UnpackedFloat.compare, place, Prod.Lex.lt_iff]
    | finite t =>
      cases s <;> cases t <;> simp [UnpackedFloat.compare, place, Prod.Lex.lt_iff,
        Ordering.then_eq_lt, Ordering.then_eq_gt, compare_lt_iff_lt, compare_gt_iff_gt]

theorem lt_iff_place {x y : Float} : x < y ↔
    shape x ≠ .notANumber ∧ shape y ≠ .notANumber ∧ place (shape x) < place (shape y) := by
  rw [lt_iff, shape_lt_iff]

instance isStrictOrder : IsStrictOrder Float (· < ·) where
  irrefl x h := lt_irrefl _ (lt_iff_place.mp h).2.2
  trans x y z h k := by
    obtain ⟨hx, _, below⟩ := lt_iff_place.mp h
    obtain ⟨_, hz, above⟩ := lt_iff_place.mp k
    exact lt_iff_place.mpr ⟨hx, hz, below.trans above⟩

/-! ### Negation -/

/-- Every shape but NaN is stored as its sign, with an exponent and a mantissa that do not depend on
    the sign. -/
theorem pack_eq_packComponents {u : UnpackedFloat} (number : u ≠ .notANumber) :
    ∃ s exponent mantissa, pack .binary64 u = packComponents .binary64 s exponent mantissa ∧
      pack .binary64 u.neg = packComponents .binary64 (-s) exponent mantissa := by
  cases u with
  | notANumber => exact absurd rfl number
  | infinity s | zero s => exact ⟨s, _, _, rfl, rfl⟩
  | finite s m e pos =>
    refine ⟨s, ?_⟩
    unfold UnpackedFloat.neg pack
    simp only
    split
    · exact ⟨_, _, rfl, rfl⟩
    · split
      · exact ⟨_, _, rfl, rfl⟩
      · exact ⟨_, _, rfl, rfl⟩

theorem unpack_neg_packComponents (s : Sign) (exponent : BitVec 11) (mantissa : BitVec 52) :
    unpack .binary64 (packComponents .binary64 (-s) exponent mantissa) =
      (unpack .binary64 (packComponents .binary64 s exponent mantissa)).neg := by
  unfold unpack
  simp only [Float.Model.UnpackedFloat.unpackSign_packComponents,
    Float.Model.UnpackedFloat.unpackExponent_packComponents,
    Float.Model.UnpackedFloat.unpackMantissa_packComponents, Float.Model.UnpackedFloat.Sign.ofBitVec_toBitVec]
  split
  · split <;> rfl
  · split
    · split <;> rfl
    · rfl

theorem shape_neg (x : Float) : shape (-x) = (shape x).neg := by
  show stored (shape x).neg = (shape x).neg
  by_cases number : shape x = .notANumber
  · rw [number]
    exact stored_nan
  · obtain ⟨s, exponent, mantissa, own, negated⟩ := pack_eq_packComponents number
    have back := stored_shape x
    unfold stored at back ⊢
    rw [negated, unpack_neg_packComponents, ← own, back]

/-! ### The laws of unit columns -/

theorem agrees_self (x : Float) : Scalar.Agrees x x := by
  cases h : (x == x)
  · exact .inr (by rw [Scalar.isUndefined, h]; rfl)
  · exact .inl h

theorem agrees_zero (h : (∃ s, shape x = .zero s) ∨ shape x = .notANumber) :
    Scalar.Agrees x 0 :=
  h.imp beq_zero_iff.mpr isUndefined_iff.mpr

theorem place_of_agrees_zero (h : Scalar.Agrees x 0) :
    place (shape x) = place (.zero .positive) := by
  rcases h with zero | undefined
  · obtain ⟨s, zero⟩ := beq_zero_iff.mp zero
    rw [zero]
    rfl
  · rw [isUndefined_iff.mp undefined]
    rfl

theorem place_neg_le {u : UnpackedFloat} (nonneg : place (.zero .positive) ≤ place u) :
    place u.neg ≤ place (.zero .positive) := by
  cases u with
  | notANumber | zero => exact le_rfl
  | infinity s => cases s <;> revert nonneg <;> decide
  | finite s =>
    cases s with
    | negative => simp [place, Prod.Lex.le_iff] at nonneg
    | positive => simp [place, UnpackedFloat.neg, Prod.Lex.le_iff]

/-- A number that is not below zero is not placed below zero. -/
theorem place_nonneg (nonneg : ¬ x < 0) (number : shape x ≠ .notANumber) :
    place (.zero .positive) ≤ place (shape x) := by
  by_contra below
  exact nonneg (lt_iff_place.mpr ⟨number, by simp, not_le.mp below⟩)

theorem not_lt_neg (h : Scalar.Agrees x 0) (nonneg : ¬ y < 0) : ¬ x < -y := by
  intro below
  obtain ⟨_, number, placed⟩ := lt_iff_place.mp below
  rw [shape_neg] at number placed
  have number' : shape y ≠ .notANumber := fun nan => number (by rw [nan]; rfl)
  rw [place_of_agrees_zero h] at placed
  exact absurd placed (not_lt.mpr (place_neg_le (place_nonneg nonneg number')))

theorem agrees_zero_abs (h : Scalar.Agrees x 0) : Scalar.Agrees x.abs 0 := by
  refine agrees_zero ?_
  rw [shape_abs]
  rcases h with zero | undefined
  · obtain ⟨s, zero⟩ := beq_zero_iff.mp zero
    rw [zero]
    exact .inl ⟨_, stored_zero _⟩
  · rw [isUndefined_iff.mp undefined]
    exact .inr stored_nan

theorem not_lt_abs (h : Scalar.Agrees x 0) (nonneg : ¬ y < 0) : ¬ y < x.abs := by
  intro below
  obtain ⟨number, _, placed⟩ := lt_iff_place.mp below
  rw [place_of_agrees_zero (agrees_zero_abs h)] at placed
  exact absurd placed (not_lt.mpr (place_nonneg nonneg number))

theorem isFinite_of_div_pos (positive : 0 < x / y) : y.isFinite = true := by
  by_contra infinite
  have zero := place_of_agrees_zero
    (agrees_zero (div_of_not_isFinite (x := x) (Bool.not_eq_true _ ▸ infinite)))
  obtain ⟨_, _, placed⟩ := lt_iff_place.mp positive
  rw [zero] at placed
  exact lt_irrefl _ placed

/-- Doubles obey the laws, whatever is rounded. -/
instance : Scalar.UnitLaws Float where
  zero_beq_zero := rfl
  neg_zero_beq_zero := rfl
  one_beq_one := rfl
  beq_zero_of_beq_one one := by
    rw [beq_one_iff.mp one]
    rfl
  add_zero_beq equal zero := by
    obtain ⟨s, zero⟩ := beq_zero_iff.mp zero
    exact beq_of_alike (alike_add_zero zero) equal
  zero_add_beq zero equal := by
    obtain ⟨s, zero⟩ := beq_zero_iff.mp zero
    exact beq_of_alike (alike_zero_add zero) equal
  sub_zero_beq equal zero := by
    obtain ⟨s, zero⟩ := beq_zero_iff.mp zero
    exact beq_of_alike (alike_sub_zero zero) equal
  sub_agrees_zero equal := agrees_zero (sub_alike (beq_iff.mp equal).2)
  mul_one_agrees {x y} one := by
    rw [beq_one_iff.mp one, mul_one]
    exact agrees_self x
  mul_zero_agrees zero := by
    obtain ⟨s, zero⟩ := beq_zero_iff.mp zero
    exact agrees_zero (mul_zero zero)
  zero_mul_beq zero finite := by
    obtain ⟨s, zero⟩ := beq_zero_iff.mp zero
    exact beq_zero_iff.mpr (zero_mul_of_isFinite zero finite)
  zero_mul_undefined zero infinite := by
    obtain ⟨s, zero⟩ := beq_zero_iff.mp zero
    exact isUndefined_iff.mpr (zero_mul_of_not_isFinite zero infinite)
  zero_div_beq zero nonzero finite := by
    obtain ⟨s, zero⟩ := beq_zero_iff.mp zero
    exact beq_zero_iff.mpr (zero_div zero nonzero finite)
  undefined_add nan := isUndefined_iff.mpr (nan_add (nan.imp isUndefined_iff.mp isUndefined_iff.mp))
  undefined_sub nan := isUndefined_iff.mpr (nan_sub (nan.imp isUndefined_iff.mp isUndefined_iff.mp))
  undefined_mul nan := isUndefined_iff.mpr (nan_mul (nan.imp isUndefined_iff.mp isUndefined_iff.mp))
  undefined_div nan := isUndefined_iff.mpr (nan_div (.inl (isUndefined_iff.mp nan)))
  not_lt_neg := not_lt_neg
  not_lt_magnitude := not_lt_abs
  isFinite_of_div_pos := isFinite_of_div_pos

end Simplex.Double
