import Simplex.Proofs.RoundTrip
import Simplex.Proofs.Statements

/-!
The nearest numbers. Rounding to whole numbers takes the nearest one, of two equally near ones the
even one. A double is a whole number of units, and the double of a decimal is as near to it as any
other double.
-/
namespace Simplex

/-! ### Rounding to whole numbers -/

/-- The whole number is as near as any other, and even if another one is equally near. -/
structure Rounds (q : Rat) (k : Int) : Prop where
  nearest : ∀ j : Int, |q - k| ≤ |q - j|
  even : ∀ j : Int, j ≠ k → |q - j| = |q - k| → Even k

namespace Rounds

variable {p q : Rat} {j k : Int}

theorem one_le_abs_sub (other : j ≠ k) : (1 : Rat) ≤ |(j : Rat) - k| := by
  have apart : (1 : Int) ≤ |j - k| := Int.one_le_abs (sub_ne_zero.mpr other)
  exact_mod_cast apart

/-- A number is rounded to the whole numbers up to a half away, and to the even ones at a half. -/
theorem iff_half : Rounds q k ↔ |q - k| ≤ 1 / 2 ∧ (|q - k| = 1 / 2 → Even k) := by
  constructor
  · intro h
    refine ⟨(h.nearest (round q)).trans (abs_sub_round q), fun half => ?_⟩
    rcases abs_cases (q - k) with ⟨side, _⟩ | ⟨side, _⟩
    · refine h.even (k + 1) (by omega) ?_
      rw [half, abs_eq (by norm_num)]
      push_cast
      right
      linarith
    · refine h.even (k - 1) (by omega) ?_
      rw [half, abs_eq (by norm_num)]
      push_cast
      left
      linarith
  · rintro ⟨near, tie⟩
    have far {j : Int} (other : j ≠ k) : 1 ≤ |q - j| + |q - k| := by
      have triangle := abs_sub_le (j : Rat) q k
      rw [abs_sub_comm (j : Rat) q] at triangle
      exact (one_le_abs_sub other).trans triangle
    constructor
    · intro j
      by_cases same : j = k
      · rw [same]
      · have := far same
        linarith
    · intro j other equal
      have := far other
      exact tie (by linarith)

theorem unique (hj : Rounds q j) (hk : Rounds q k) : j = k := by
  by_contra other
  have same : |q - j| = |q - k| := le_antisymm (hj.nearest k) (hk.nearest j)
  -- both are even and a half away, so they are two apart
  obtain ⟨a, ha⟩ := hj.even k (Ne.symm other) same.symm
  obtain ⟨b, hb⟩ := hk.even j other same
  have apart : (2 : Int) ≤ |j - k| := by
    have step : j - k = 2 * (a - b) := by omega
    have separate := Int.one_le_abs (show a - b ≠ 0 by omega)
    rw [step, abs_mul, abs_two]
    omega
  have wide : (2 : Rat) ≤ |(j : Rat) - k| := by exact_mod_cast apart
  have triangle := abs_sub_le (j : Rat) q k
  rw [abs_sub_comm (j : Rat) q] at triangle
  have left := (iff_half.mp hj).1
  have right := (iff_half.mp hk).1
  linarith

theorem neg (h : Rounds q k) : Rounds (-q) (-k) := by
  have mirrored : |-q - ((-k : Int) : Rat)| = |q - k| := by
    rw [← abs_neg]
    push_cast
    ring_nf
  rw [iff_half, mirrored]
  exact ⟨(iff_half.mp h).1, fun half => ((iff_half.mp h).2 half).neg⟩

/-- What is at least as near to the whole number is rounded to it too. -/
theorem of_closer (h : Rounds p k) (closer : |q - k| ≤ |p - k|) : Rounds q k := by
  obtain ⟨near, tie⟩ := iff_half.mp h
  refine iff_half.mpr ⟨closer.trans near, fun half => tie (le_antisymm near ?_)⟩
  rw [← half]
  exact closer

/-- Rounding of a quotient, told from the whole numbers alone. -/
theorem iff_quotient {n d : Nat} (pos : 0 < d) :
    Rounds ((n : Rat) / d) k ↔
      2 * |(n : Int) - k * d| ≤ d ∧ (2 * |(n : Int) - k * d| = d → Even k) := by
  have positive : (0 : Rat) < d := by exact_mod_cast pos
  have scaled : |(n : Rat) / d - k| = (|(n : Int) - k * d| : Int) / d := by
    push_cast
    rw [← abs_of_pos positive, ← abs_div, abs_of_pos positive, sub_div,
      mul_div_cancel_right₀ _ positive.ne']
  rw [iff_half, scaled, div_le_div_iff₀ positive two_pos, div_eq_div_iff positive.ne' two_ne_zero,
    one_mul, mul_comm]
  norm_cast

end Rounds

namespace Binary64

theorem rounds_roundHalfEven (n : Nat) {d : Nat} (pos : 0 < d) :
    Rounds ((n : Rat) / d) (roundHalfEven n d : Nat) := by
  have less := Nat.mod_lt n pos
  have whole : (n : Int) = (n / d : Nat) * d + (n % d : Nat) := by
    exact_mod_cast (Nat.div_add_mod' n d).symm
  rw [Rounds.iff_quotient pos]
  unfold roundHalfEven
  simp only
  generalize n / d = below at *
  generalize n % d = rest at *
  have low : (n : Int) - (below : Int) * d = rest := by omega
  have high : (n : Int) - ((below + 1 : Nat) : Int) * d = -(d - rest : Nat) := by
    push_cast [Nat.cast_sub less.le]
    linarith
  split
  · rw [low, Nat.abs_cast]
    exact ⟨by omega, fun _ => by omega⟩
  · split
    · rw [high, abs_neg, Nat.abs_cast]
      exact ⟨by omega, fun _ => by omega⟩
    · -- the middle between two whole numbers
      split
      · rename_i even
        rw [low, Nat.abs_cast]
        exact ⟨by omega, fun _ => by exact_mod_cast Nat.even_iff.mpr even⟩
      · rename_i odd
        rw [high, abs_neg, Nat.abs_cast]
        refine ⟨by omega, fun _ => ?_⟩
        exact_mod_cast Nat.even_iff.mpr (by omega : (below + 1) % 2 = 0)

/-! ### Doubles as units -/

open Float.Model (Format UnpackedFloat)
open Float.Model.UnpackedFloat (Sign unpack unpackExponent)
open Double (shape value?)

variable {x : Float}

theorem units_of_shape_zero {s : Sign} (h : shape x = .zero s) : units x = 0 := by
  rw [shape_eq] at h
  unfold unpack at h
  simp only at h
  split at h
  · split at h <;> cases h
  · split at h
    · rename_i exponent
      split at h
      · rename_i mantissa
        have field := congrArg BitVec.toNat exponent
        have rest := congrArg BitVec.toNat mantissa
        rw [toNat_unpackExponent] at field
        rw [toNat_unpackMantissa] at rest
        rw [units_eq, if_pos (show exponentField x = 0 from field)]
        exact rest
      · cases h
    · cases h

theorem units_of_shape_finite {s : Sign} {m : Nat} {e : Int} {pos : 0 < m}
    (h : shape x = .finite s m e pos) : (units x : Rat) = m * 2 ^ (e + 1074) := by
  have bias : ((Format.binary64.exponentBias : Nat) : Int) = 1023 := rfl
  rw [shape_eq] at h
  unfold unpack at h
  simp only [bias] at h
  split at h
  · split at h <;> cases h
  · split at h
    · rename_i exponent
      have field := congrArg BitVec.toNat exponent
      rw [toNat_unpackExponent] at field
      split at h
      · cases h
      · simp only [UnpackedFloat.finite.injEq, toNat_unpackMantissa, toNat_unpackExponent,
          field] at h
        obtain ⟨_, rfl, rfl, _⟩ := h
        rw [units_eq, if_pos (show exponentField x = 0 from field)]
        norm_num
        rfl
    · rename_i exponent
      have field : exponentField x ≠ 0 := fun zero => exponent (by
        rw [BitVec.toNat_eq, toNat_unpackExponent]
        exact zero)
      simp only [UnpackedFloat.finite.injEq, Double.toNat_implicit, toNat_unpackMantissa,
        toNat_unpackExponent] at h
      obtain ⟨_, rfl, rfl, _⟩ := h
      obtain ⟨k, successor⟩ := Nat.exists_eq_succ_of_ne_zero field
      have exponent :
          ((x.toBits.toNat / hidden % 2048 : Nat) : Int) - (1023 + 52 : Nat) + 1074 = k := by
        change ((exponentField x : Nat) : Int) - _ + _ = _
        rw [successor]
        push_cast
        ring
      rw [units_of_exponentField_pos field, successor]
      push_cast at exponent ⊢
      rw [exponent, zpow_natCast]
      rfl

theorem cast_unitsPerOne : (unitsPerOne : Rat) = 2 ^ (1074 : Int) := by
  have power (n : Nat) : ((Nat.pow 2 n : Nat) : Rat) = 2 ^ (n : Int) := by
    rw [zpow_natCast]
    exact Nat.cast_pow 2 n
  exact power 1074

/-- The number that a finite double is, by its units and its sign. -/
theorem value?_eq (finite : x.isFinite = true) :
    value? x = some (if isNegative x then -((units x : Rat) / unitsPerOne)
      else (units x : Rat) / unitsPerOne) := by
  have sign := abs_shape x
  rw [Double.isFinite_eq] at finite
  unfold value?
  cases h : shape x with
  | notANumber | infinity => rw [h] at finite; cases finite
  | zero s => simp only [units_of_shape_zero h, Nat.cast_zero, zero_div, neg_zero, ite_self]
  | finite s m e pos =>
    have size : (units x : Rat) / unitsPerOne = m * 2 ^ e := by
      rw [units_of_shape_finite h, cast_unitsPerOne, zpow_add₀ two_ne_zero, ← mul_assoc,
        mul_div_cancel_right₀ _ (zpow_ne_zero _ two_ne_zero)]
    rw [h] at sign
    simp only [size]
    cases negative : isNegative x <;> cases s <;>
      simp [negative, UnpackedFloat.abs, UnpackedFloat.neg, Sign.apply] at sign ⊢

theorem unitsPerOne_pos : 0 < unitsPerOne := Nat.two_pow_pos _

theorem isFinite_of_value? {q : Rat} (own : value? x = some q) : x.isFinite = true := by
  rw [← Double.isSome_value?, own]
  rfl

theorem abs_of_value? {q : Rat} (own : value? x = some q) :
    abs q = (units x : Rat) / unitsPerOne := by
  have nonneg : (0 : Rat) ≤ (units x : Rat) / unitsPerOne :=
    div_nonneg (Nat.cast_nonneg _) (Nat.cast_nonneg _)
  rw [value?_eq (isFinite_of_value? own), Option.some_inj] at own
  rw [← own]
  split
  · rw [abs_neg, abs_of_nonneg nonneg]
  · rw [abs_of_nonneg nonneg]

/-! ### Doubles of units -/

theorem isFinite_of_exponentField (small : exponentField x < 2047) : x.isFinite = true := by
  have notFull : @unpackExponent .binary64 x.toBits.toBitVec ≠ -1#_ := by
    intro full
    have field := congrArg BitVec.toNat full
    rw [toNat_unpackExponent] at field
    exact absurd field small.ne
  rw [Double.isFinite_eq, shape_eq]
  unfold unpack
  simp only
  rw [if_neg notFull]
  split
  · split <;> rfl
  · rfl

/-- Bits whose exponent field is not full are those of a double. -/
theorem toBits_ofBits {bits : UInt64} (small : bits.toNat / hidden % 2048 < 2047) :
    (Float.ofBits bits).toBits = bits := by
  have valid : Format.binary64.Valid bits.toBitVec := by
    refine ⟨fun full _ => ?_⟩
    have field := congrArg BitVec.toNat full
    rw [toNat_unpackExponent] at field
    exact absurd field small.ne
  show UInt64.ofBitVec (UnpackedFloat.pack .binary64 (unpack .binary64 bits.toBitVec)) = bits
  rw [UnpackedFloat.pack_unpack_of_valid valid]

theorem toNat_toUInt64 {n : Nat} (small : n < 2 ^ 64) : n.toUInt64.toNat = n :=
  Nat.mod_eq_of_lt small

/-- Bits that are put together from an exponent that is not full and a fraction have these fields. -/
theorem fields_ofBits {exponent fraction : Nat} (small : exponent < 2047)
    (narrow : fraction < hidden) :
    let x := Float.ofBits (exponent * hidden + fraction).toUInt64
    exponentField x = exponent ∧ fractionField x = fraction ∧ isNegative x = false := by
  rw [hidden_eq] at narrow
  have within : exponent * hidden + fraction < 2 ^ 63 := by rw [hidden_eq]; omega
  have bits := toNat_toUInt64 (within.trans (by decide))
  have own := @toBits_ofBits (exponent * hidden + fraction).toUInt64
    (by rw [bits, hidden_eq]; omega)
  simp only [exponentField, fractionField, isNegative, own, bits]
  rw [hidden_eq] at within ⊢
  exact ⟨by omega, by omega, decide_eq_false (Nat.not_le.mpr within)⟩

/-- A number of units below the limit that has 53 significant bits is written with an exponent that is
    not full. -/
theorem ofUnits_eq_ofBits {n : Nat} (significant : 2 ^ (n.log2 - 52) ∣ n)
    (bounded : n < Nat.pow 2 2098) :
    ∃ exponent fraction, exponent < 2047 ∧ fraction < hidden ∧
      ofUnits n = Float.ofBits (exponent * hidden + fraction).toUInt64 ∧
      (if exponent = 0 then fraction else (hidden + fraction) * 2 ^ (exponent - 1)) = n := by
  unfold ofUnits
  by_cases small : n < hidden
  · exact ⟨0, n, by decide, small, by rw [if_pos small, zero_mul, zero_add], if_pos rfl⟩
  · rw [if_neg small, if_neg (Nat.not_le.mpr bounded)]
    have nonzero : n ≠ 0 := fun zero => small (by rw [zero]; decide)
    have low : 52 ≤ n.log2 := (Nat.le_log2 nonzero).mpr (Nat.not_lt.mp small)
    have high : n.log2 < 2098 := (Nat.log2_lt nonzero).mpr bounded
    obtain ⟨shift, width⟩ := Nat.exists_eq_add_of_le low
    have back : n.log2 - 52 = shift := by omega
    simp only [back] at significant ⊢
    obtain ⟨q, rfl⟩ := significant
    have positive : 0 < 2 ^ shift := Nat.two_pow_pos _
    have quotient : 2 ^ shift * q / Nat.pow 2 shift = q := Nat.mul_div_cancel_left q positive
    -- the quotient has 53 bits, and the leading one is not written
    have leading : 2 ^ 52 ≤ q := by
      refine Nat.le_of_mul_le_mul_left ?_ positive
      rw [← Nat.pow_add, Nat.add_comm, ← width]
      exact Nat.log2_self_le nonzero
    have narrow : q < 2 ^ 53 := by
      refine Nat.lt_of_mul_lt_mul_left (a := 2 ^ shift) ?_
      rw [← Nat.pow_add, show shift + 53 = 52 + shift + 1 by omega, ← width]
      exact Nat.lt_log2_self
    obtain ⟨fraction, rfl⟩ := Nat.exists_eq_add_of_le leading
    refine ⟨shift + 1, fraction, by omega, by rw [hidden_eq]; omega, ?_, ?_⟩
    · rw [quotient, Nat.succ_mul, Nat.add_assoc, hidden_eq]
    · rw [if_neg (Nat.succ_ne_zero _), Nat.add_sub_cancel, Nat.mul_comm, hidden_eq]

/-- A number of units with 53 significant bits that is below the limit has a double, which is no
    negative one. -/
theorem ofUnits_spec {n : Nat} (significant : 2 ^ (n.log2 - 52) ∣ n)
    (bounded : n < Nat.pow 2 2098) :
    (ofUnits n).isFinite = true ∧ units (ofUnits n) = n ∧ isNegative (ofUnits n) = false := by
  obtain ⟨exponent, fraction, small, narrow, own, size⟩ := ofUnits_eq_ofBits significant bounded
  obtain ⟨hexponent, hfraction, positive⟩ := fields_ofBits small narrow
  rw [own]
  refine ⟨isFinite_of_exponentField (by rw [hexponent]; exact small), ?_, positive⟩
  rw [units_eq, hexponent, hfraction, size]

theorem value?_ofUnits {n : Nat} (significant : 2 ^ (n.log2 - 52) ∣ n)
    (bounded : n < Nat.pow 2 2098) :
    value? (ofUnits n) = some ((n : Rat) / unitsPerOne) := by
  obtain ⟨finite, size, positive⟩ := ofUnits_spec significant bounded
  rw [value?_eq finite, size, positive]
  rfl

/-! ### The nearest number of units -/

theorem roundHalfEven_le (n d : Nat) : roundHalfEven n d ≤ n / d + 1 := by
  unfold roundHalfEven
  simp only
  split
  · omega
  · split
    · omega
    · split <;> omega

/-- A quotient in units is rounded to a multiple of a power of two, which is one unless the quotient
    has more than 53 bits. -/
theorem exists_grid (n : Nat) {d : Nat} (pos : 0 < d) :
    ∃ shift r : Nat, nearestUnits n d = r * 2 ^ shift ∧ r ≤ 2 ^ 53 ∧
      Rounds ((n : Rat) * unitsPerOne / d / 2 ^ shift) r ∧
      (shift = 0 ∨ (2 : Rat) ^ (shift + 52) ≤ (n : Rat) * unitsPerOne / d) := by
  unfold nearestUnits
  simp only
  generalize unitsPerOne = units
  generalize width : (n * units / d).log2 - 52 = shift
  have step : 0 < d * 2 ^ shift := Nat.mul_pos pos (Nat.two_pow_pos _)
  refine ⟨shift, roundHalfEven (n * units) (d * 2 ^ shift), rfl, ?_, ?_, ?_⟩
  · have narrow : n * units / (d * 2 ^ shift) < 2 ^ 53 := by
      rw [← Nat.div_div_eq_div_mul, Nat.div_lt_iff_lt_mul (Nat.two_pow_pos _), ← Nat.pow_add]
      exact Nat.lt_log2_self.trans_le (Nat.pow_le_pow_right (by decide) (by omega))
    have near := roundHalfEven_le (n * units) (d * 2 ^ shift)
    omega
  · have rounds := rounds_roundHalfEven (n * units) step
    push_cast at rounds
    rwa [← div_div] at rounds
  · by_cases zero : shift = 0
    · exact .inl zero
    · right
      have exact : (n * units / d).log2 = shift + 52 := by omega
      have nonzero : n * units / d ≠ 0 := by
        intro none
        rw [none, Nat.log2_zero] at exact
        omega
      calc (2 : Rat) ^ (shift + 52) ≤ (n * units / d : Nat) := by
            rw [← exact]
            exact_mod_cast Nat.log2_self_le nonzero
        _ ≤ ((n * units : Nat) : Rat) / d := Nat.cast_div_le
        _ = (n : Rat) * units / d := by rw [Nat.cast_mul]

theorem significant_of_lt {r : Nat} (narrow : r < 2 ^ 53) (shift : Nat) :
    2 ^ ((r * 2 ^ shift).log2 - 52) ∣ r * 2 ^ shift := by
  by_cases zero : r = 0
  · rw [zero, Nat.zero_mul]
    exact Nat.dvd_zero _
  · have few := (Nat.log2_lt zero).mpr narrow
    rw [Double.log2_mul_two_pow (Nat.pos_of_ne_zero zero)]
    exact (Nat.pow_dvd_pow 2 (by omega)).trans (Nat.dvd_mul_left _ _)

theorem significant_nearestUnits (n : Nat) {d : Nat} (pos : 0 < d) :
    2 ^ ((nearestUnits n d).log2 - 52) ∣ nearestUnits n d := by
  obtain ⟨shift, r, units, wide, _⟩ := exists_grid n pos
  rw [units]
  rcases Nat.lt_or_eq_of_le wide with narrow | rfl
  · exact significant_of_lt narrow shift
  · -- rounding up to one bit more
    have carried : 2 ^ 53 * 2 ^ shift = 2 ^ 52 * 2 ^ (shift + 1) := by
      rw [← Nat.pow_add, ← Nat.pow_add]
      congr 1
      omega
    rw [carried]
    exact significant_of_lt (by decide) _

/-- No number of units with 53 significant bits is nearer. -/
theorem nearestUnits_nearest (n : Nat) {d m : Nat} (pos : 0 < d)
    (significant : 2 ^ (m.log2 - 52) ∣ m) :
    |(n : Rat) * unitsPerOne / d - nearestUnits n d| ≤ |(n : Rat) * unitsPerOne / d - m| := by
  obtain ⟨shift, r, units, _, rounds, coarse⟩ := exists_grid n pos
  generalize (n : Rat) * unitsPerOne / d = v at *
  have step : (0 : Rat) < 2 ^ shift := pow_pos two_pos _
  have onGrid (j : Nat) : |v - nearestUnits n d| ≤ |v - (j * 2 ^ shift : Nat)| := by
    have scaled (i : Nat) : |v - (i * 2 ^ shift : Nat)| = |v / 2 ^ shift - i| * 2 ^ shift := by
      rw [← abs_of_pos step, ← abs_mul, abs_of_pos step, sub_mul, div_mul_cancel₀ _ step.ne']
      push_cast
      rfl
    rw [units, scaled, scaled]
    exact mul_le_mul_of_nonneg_right (rounds.nearest j) step.le
  by_cases multiple : 2 ^ shift ∣ m
  · obtain ⟨j, rfl⟩ := multiple
    rw [Nat.mul_comm]
    exact onGrid j
  · -- the number has fewer bits than the grid, so a point of the grid lies between
    have fine : m.log2 - 52 < shift := by
      by_contra above
      exact multiple ((Nat.pow_dvd_pow 2 (Nat.not_lt.mp above)).trans significant)
    have nonzero : m ≠ 0 := fun zero => multiple (zero ▸ Nat.dvd_zero _)
    have below : m < 2 ^ (shift + 52) := (Nat.log2_lt nonzero).mp (by omega)
    have between : (2 : Rat) ^ (shift + 52) ≤ v := coarse.resolve_left (by omega)
    have least : (m : Rat) < 2 ^ (shift + 52) := by exact_mod_cast below
    refine (onGrid (2 ^ 52)).trans ?_
    have corner : ((2 ^ 52 * 2 ^ shift : Nat) : Rat) = 2 ^ (shift + 52) := by
      push_cast
      ring
    rw [corner, abs_of_nonneg (sub_nonneg.mpr between),
      abs_of_nonneg (sub_nonneg.mpr (least.le.trans between))]
    linarith

/-- Numbers of units with 53 significant bits keep their distance from the next power of two. -/
theorem add_gap_le {m k : Nat} (wide : 52 ≤ k) (significant : 2 ^ (m.log2 - 52) ∣ m)
    (below : m < 2 ^ (k + 1)) : m + 2 ^ (k - 52) ≤ 2 ^ (k + 1) := by
  by_cases zero : m = 0
  · rw [zero, Nat.zero_add]
    exact Nat.pow_le_pow_right (by decide) (by omega)
  · have bits := (Nat.log2_lt zero).mpr below
    by_cases full : m.log2 = k
    · rw [full] at significant
      obtain ⟨q, rfl⟩ := significant
      have top : 2 ^ (k + 1) = 2 ^ (k - 52) * 2 ^ 53 := by
        rw [← Nat.pow_add]
        congr 1
        omega
      rw [top] at below ⊢
      have less := Nat.lt_of_mul_lt_mul_left below
      calc 2 ^ (k - 52) * q + 2 ^ (k - 52) = 2 ^ (k - 52) * (q + 1) := (Nat.mul_succ _ _).symm
        _ ≤ 2 ^ (k - 52) * 2 ^ 53 := Nat.mul_le_mul_left _ less
    · have half : m < 2 ^ k := (Nat.log2_lt zero).mp (by omega)
      have small : 2 ^ (k - 52) ≤ 2 ^ k := Nat.pow_le_pow_right (by decide) (by omega)
      rw [Nat.pow_succ]
      omega

theorem two_mul_unitsPerOne_lt : 2 * unitsPerOne < 2 ^ (2097 - 52) := by decide +kernel

/-- What is within one of a finite double is not rounded to an infinity. -/
theorem nearestUnits_lt (n : Nat) {d m : Nat} (pos : 0 < d) (significant : 2 ^ (m.log2 - 52) ∣ m)
    (bounded : m < Nat.pow 2 2098) (close : |(n : Rat) * unitsPerOne / d - m| ≤ unitsPerOne) :
    nearestUnits n d < Nat.pow 2 2098 := by
  have nearest := nearestUnits_nearest n pos significant
  have gap : m + 2 * unitsPerOne < Nat.pow 2 2098 :=
    (Nat.add_lt_add_left two_mul_unitsPerOne_lt m).trans_le
      (add_gap_le (k := 2097) (by decide) significant bounded)
  have reach : (nearestUnits n d : Rat) ≤ (m + 2 * unitsPerOne : Nat) := by
    generalize (n : Rat) * unitsPerOne / d = v at *
    have triangle := abs_sub_le (nearestUnits n d : Rat) v m
    have ahead := le_abs_self ((nearestUnits n d : Rat) - m)
    rw [abs_sub_comm _ v] at triangle
    push_cast
    linarith
  exact (Nat.cast_le.mp reach).trans_lt gap

end Binary64

namespace Decimal

open Double (value?)

/-- The number that a decimal writes. -/
def value (d : Decimal) : Rat := d.digits * 10 ^ d.exponent

/-- Where no double is too small or too large for it, a decimal is read as a quotient. -/
theorem exists_quotient {d : Decimal} (low : -400 ≤ d.exponent) (high : d.exponent ≤ 400) :
    ∃ n m : Nat, 0 < m ∧ d.nearestUnits = Binary64.nearestUnits n m ∧
      d.value = (n : Rat) / m := by
  obtain ⟨digits, exponent⟩ := d
  by_cases zero : digits = 0
  · refine ⟨0, 1, one_pos, ?_, by simp [value, zero]⟩
    rw [zero, nearestUnits_zero]
    simp [Binary64.nearestUnits, Binary64.roundHalfEven]
  · unfold nearestUnits
    simp only at low high ⊢
    rw [if_neg zero, if_neg (not_lt.mpr high), if_neg (by omega)]
    cases exponent with
    | ofNat e =>
      refine ⟨digits * 10 ^ e, 1, one_pos, rfl, ?_⟩
      simp [value]
    | negSucc e =>
      refine ⟨digits, 10 ^ (e + 1), Nat.pow_pos (by decide), rfl, ?_⟩
      simp [value, zpow_negSucc, div_eq_mul_inv]

/-- The double of a decimal is as near to it as any other double, and it is finite if a finite double
    is within one of it. -/
theorem toFloat_nearest {d : Decimal} (low : -400 ≤ d.exponent) (high : d.exponent ≤ 400)
    {x : Float} {q : Rat} (own : value? x = some q) (close : |d.value - abs q| ≤ 1) :
    ∃ z, value? d.toFloat = some z ∧ |d.value - z| ≤ |d.value - abs q| := by
  obtain ⟨n, m, pos, units, quotient⟩ := exists_quotient low high
  have one : (0 : Rat) < Binary64.unitsPerOne := Nat.cast_pos.mpr Binary64.unitsPerOne_pos
  have scaled (k : Nat) : |(n : Rat) * Binary64.unitsPerOne / m - k| =
      |d.value - (k : Rat) / Binary64.unitsPerOne| * Binary64.unitsPerOne := by
    rw [quotient, ← abs_of_pos one, ← abs_mul, abs_of_pos one, sub_mul, div_mul_cancel₀ _ one.ne']
    ring_nf
  have significant := Binary64.two_pow_dvd_units x
  have bounded := Binary64.units_lt (Binary64.isFinite_of_value? own) (Nat.le_refl 2098)
  have within : |(n : Rat) * Binary64.unitsPerOne / m - Binary64.units x| ≤
      Binary64.unitsPerOne := by
    rw [scaled, ← Binary64.abs_of_value? own]
    exact mul_le_of_le_one_left one.le close
  have limit := Binary64.nearestUnits_lt n pos significant bounded within
  have nearest := Binary64.nearestUnits_nearest n pos significant
  rw [scaled, scaled, mul_le_mul_iff_of_pos_right one, ← Binary64.abs_of_value? own] at nearest
  refine ⟨_, ?_, nearest⟩
  rw [toFloat, units, Binary64.value?_ofUnits (Binary64.significant_nearestUnits n pos) limit]

end Decimal

end Simplex
