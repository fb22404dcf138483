import Simplex.Proofs.Literals
import Simplex.Proofs.Units

/-!
Shortest texts. The decimal that a double is written with reads back as the double: a point of a
grid is taken only if it does, and all digits do anyway. Its positional notation is a literal.
-/
namespace Simplex.Decimal

open Binary64 (units roundHalfEven unitsPerOne)

variable {x : Float} {tie : Tie} {magnitude : Nat}

/-! ### The shortest decimal -/

theorem roundHalfEven_mul {q d : Nat} (pos : 0 < d) : roundHalfEven (q * d) d = q := by
  have exact : q * d / d = q := Nat.mul_div_cancel q pos
  have rest : q * d % d = 0 := Nat.mul_mod_left q d
  simp [roundHalfEven, exact, rest, pos]

theorem nearestUnits_of_readsBackOn {k : Int} {d : Decimal}
    (found : readsBackOn? tie magnitude k = some d) : d.nearestUnits = magnitude := by
  unfold readsBackOn? at found
  simp only at found
  split at found
  · rename_i low high
    split at found <;> cases found
    · exact beq_iff_eq.mp low
    · exact beq_iff_eq.mp high
  · rename_i low _
    cases found
    exact beq_iff_eq.mp low
  · rename_i _ high
    cases found
    exact beq_iff_eq.mp high
  · cases found

/-- A magnitude of 53 significant bits is not rounded when it is written as a decimal fraction. -/
theorem nearestUnits_fives {n : Nat} (unit : unitsPerOne = Nat.pow 2 n)
    (significant : 2 ^ (magnitude.log2 - 52) ∣ magnitude) :
    Binary64.nearestUnits (magnitude * Nat.pow 5 n) (Nat.pow 10 n) = magnitude := by
  have tens : Nat.pow 5 n * Nat.pow 2 n = Nat.pow 10 n := (Nat.mul_pow 5 2 n).symm
  have positive : 0 < Nat.pow 10 n := Nat.pow_pos (by decide)
  have quotient : magnitude * Nat.pow 10 n / Nat.pow 10 n = magnitude :=
    Nat.mul_div_cancel _ positive
  unfold Binary64.nearestUnits
  simp only [unit, Nat.mul_assoc, tens, quotient]
  obtain ⟨q, split⟩ := significant
  have step : 0 < Nat.pow 10 n * 2 ^ (magnitude.log2 - 52) :=
    Nat.mul_pos positive (Nat.two_pow_pos _)
  have grid : magnitude * Nat.pow 10 n = q * (Nat.pow 10 n * 2 ^ (magnitude.log2 - 52)) := by
    conv_lhs => rw [split]
    ring
  show roundHalfEven _ (Nat.pow 10 n * 2 ^ (magnitude.log2 - 52)) * 2 ^ (magnitude.log2 - 52) = _
  rw [grid, roundHalfEven_mul step, Nat.mul_comm, ← split]

theorem le_log2_fives (nonzero : magnitude ≠ 0) (n : Nat) :
    n ≤ (magnitude * Nat.pow 5 n).log2 := by
  have positive : 0 < Nat.pow 5 n := Nat.pow_pos (by decide)
  rw [Nat.le_log2 (Nat.mul_ne_zero nonzero positive.ne')]
  calc 2 ^ n ≤ Nat.pow 5 n := Nat.pow_le_pow_left (by decide) n
    _ ≤ magnitude * Nat.pow 5 n := Nat.le_mul_of_pos_left _ (Nat.pos_of_ne_zero nonzero)

/-- All digits of a magnitude of 53 significant bits read back as the magnitude. -/
theorem nearestUnits_exact (nonzero : magnitude ≠ 0)
    (significant : 2 ^ (magnitude.log2 - 52) ∣ magnitude) :
    (exact magnitude).nearestUnits = magnitude := by
  have positive (n : Nat) : 0 < Nat.pow 5 n := Nat.pow_pos (by decide)
  have digits := Nat.mul_ne_zero nonzero (positive 1074).ne'
  have large := le_log2_fives nonzero 1074
  unfold exact nearestUnits
  simp only
  rw [if_neg digits, if_neg (by decide), if_neg (by omega)]
  exact nearestUnits_fives rfl significant

theorem nearestUnits_zero (exponent : Int) : nearestUnits ⟨0, exponent⟩ = 0 := by
  unfold nearestUnits
  rw [if_pos rfl]

theorem nearestUnits_shortest (significant : 2 ^ (magnitude.log2 - 52) ∣ magnitude) :
    (shortest tie magnitude).nearestUnits = magnitude := by
  unfold shortest
  split
  · rename_i zero
    rw [nearestUnits_zero, zero]
  · rename_i nonzero
    cases found : (List.range 21).findSome? fun (i : Nat) =>
        readsBackOn? tie magnitude (coarseGrid magnitude - (i : Int)) with
    | none =>
      simp only [found, Option.getD_none]
      exact nearestUnits_exact nonzero significant
    | some d =>
      obtain ⟨i, _, taken⟩ := List.exists_of_findSome?_eq_some found
      simp only [found, Option.getD_some]
      exact nearestUnits_of_readsBackOn taken

/-! ### Positional notation -/

theorem natOfDigits_toDigits (n : Nat) : natOfDigits (Nat.toDigits 10 n) = n :=
  Nat.ofDigitChars_ten_toDigits

theorem natOfDigits_append_zeros (digits : List Char) (n : Nat) :
    natOfDigits (digits ++ List.replicate n '0') = natOfDigits digits * 10 ^ n := by
  rw [natOfDigits, Nat.ofDigitChars_append, Nat.ofDigitChars_replicate_zero, Nat.mul_comm]
  rfl

theorem natOfDigits_zeros_append (n : Nat) (digits : List Char) :
    natOfDigits (List.replicate n '0' ++ digits) = natOfDigits digits := by
  rw [natOfDigits, Nat.ofDigitChars_append, Nat.ofDigitChars_replicate_zero, Nat.mul_zero]
  rfl

theorem isDigit_of_mem_toDigits {n : Nat} {c : Char} (member : c ∈ Nat.toDigits 10 n) :
    c.isDigit = true := Nat.isDigit_of_mem_toDigits (by decide) (by decide) member

/-- A whole decimal that is no infinity is the nearest double's also when its zeros are digits. -/
theorem nearestUnits_shifted {digits e : Nat}
    (bounded : nearestUnits ⟨digits, .ofNat e⟩ ≠ Nat.pow 2 2098) :
    nearestUnits ⟨digits * 10 ^ e, 0⟩ = nearestUnits ⟨digits, .ofNat e⟩ := by
  by_cases zero : digits = 0
  · rw [zero, Nat.zero_mul, nearestUnits_zero, nearestUnits_zero]
  · have positive : 0 < 10 ^ e := Nat.pow_pos (by decide)
    have nonzero : digits * 10 ^ e ≠ 0 := Nat.mul_ne_zero zero positive.ne'
    unfold nearestUnits at bounded ⊢
    simp only at bounded ⊢
    rw [if_neg zero] at bounded ⊢
    rw [if_neg nonzero, if_neg (by decide), if_neg (by omega)]
    split at bounded
    · exact absurd rfl bounded
    · rename_i small
      rw [if_neg small, if_neg (by simp only [Int.ofNat_eq_natCast]; omega)]
      show Binary64.nearestUnits (digits * 10 ^ e * 1) 1 = Binary64.nearestUnits (digits * 10 ^ e) 1
      rw [Nat.mul_one]

/-- Positional notation is a literal without an exponent, and the literal is nearest to the same
    double. -/
theorem exists_literal (d : Decimal) (bounded : d.nearestUnits ≠ Nat.pow 2 2098) :
    ∃ (whole : Digits) (fraction : Option Digits),
      whole.chars ++ fractionChars fraction = d.positional ∧
        (Literal.mk none whole fraction none).decimal.nearestUnits = d.nearestUnits := by
  obtain ⟨digits, exponent⟩ := d
  have nonempty : Nat.toDigits 10 digits ≠ [] := Nat.toDigits_ne_nil
  cases exponent with
  | ofNat e =>
    refine ⟨⟨Nat.toDigits 10 digits ++ List.replicate e '0', by simp [nonempty], ?_⟩, none, ?_, ?_⟩
    · intro c member
      rcases List.mem_append.mp member with own | zero
      · exact isDigit_of_mem_toDigits own
      · rw [List.eq_of_mem_replicate zero]; rfl
    · simp [fractionChars, positional]
    · rw [← nearestUnits_shifted bounded]
      simp [Literal.decimal, natOfDigits_append_zeros, natOfDigits_toDigits]
  | negSucc e =>
    -- zeros in front leave at least one digit before the point
    let padded :=
      List.replicate (e + 2 - (Nat.toDigits 10 digits).length) '0' ++ Nat.toDigits 10 digits
    have length : e + 2 ≤ padded.length := by simp [padded]; omega
    have all : ∀ c ∈ padded, c.isDigit = true := by
      intro c member
      rcases List.mem_append.mp member with zero | own
      · rw [List.eq_of_mem_replicate zero]; rfl
      · exact isDigit_of_mem_toDigits own
    let point := padded.length - (e + 1)
    have before : padded.take point ≠ [] := by
      rw [ne_eq, List.take_eq_nil_iff]; rintro (none | none)
      · omega
      · rw [none] at length; simp at length
    have behind : (padded.drop point).length = e + 1 := by rw [List.length_drop]; omega
    refine ⟨⟨padded.take point, before, fun c member => all c (List.mem_of_mem_take member)⟩,
      some ⟨padded.drop point, List.ne_nil_of_length_pos (by omega),
        fun c member => all c (List.mem_of_mem_drop member)⟩, rfl, ?_⟩
    have same : natOfDigits padded = digits := by
      rw [natOfDigits_zeros_append, natOfDigits_toDigits]
    simp only [Literal.decimal, Option.elim_some, Option.elim_none, List.take_append_drop, same,
      behind]
    congr 2

/-- A finite double is written as a literal, and the literal is its magnitude. -/
theorem exists_literal_of_isFinite (finite : x.isFinite = true) :
    ∃ (whole : Digits) (fraction : Option Digits),
      whole.chars ++ fractionChars fraction = shortestText x ∧
        (Literal.mk none whole fraction none).decimal.toFloat = x.abs := by
  have reads : (shortest .greater (units x)).nearestUnits = units x :=
    nearestUnits_shortest (Binary64.two_pow_dvd_units x)
  have limit := Binary64.units_lt finite (Nat.le_refl 2098)
  have bounded := reads ▸ limit.ne
  obtain ⟨whole, fraction, chars, nearest⟩ := exists_literal _ bounded
  refine ⟨whole, fraction, ?_, ?_⟩
  · obtain ⟨number, limited⟩ := Double.isFinite_iff.mp finite
    rw [chars, shortestText, number, limited]
    rfl
  · rw [toFloat, nearest, reads, Binary64.ofUnits_units finite]

/-- The magnitude of a finite double behind a sign is a literal for the double. -/
theorem exists_signed_literal {y : Float} (finite : y.isFinite = true) (same : y.abs = x.abs)
    {s : Option Sign} (signed : s = some .minus ↔ Binary64.isNegative x = true) :
    ∃ (whole : Digits) (fraction : Option Digits),
      whole.chars ++ fractionChars fraction = shortestText y ∧
        (Literal.mk s whole fraction none).value = x := by
  obtain ⟨whole, fraction, chars, value⟩ := exists_literal_of_isFinite finite
  refine ⟨whole, fraction, chars, ?_⟩
  show (if s = some .minus then -(Literal.mk none whole fraction none).decimal.toFloat
    else (Literal.mk none whole fraction none).decimal.toFloat) = x
  simp only [signed]
  rw [value, same, ← Binary64.eq_abs]

end Simplex.Decimal
