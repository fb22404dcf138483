import Simplex.Listing
import Simplex.Proofs.Plain

/-!
Numbers in listings. A finite double is written in plain notation as the nearest multiple of `10^-6`.
The multiple determines the text, and the text reads back as a double with the same multiple
(`number_canonical`).
-/
namespace Simplex

open Double (shape value?)
open Binary64 (units unitsPerOne isNegative)
open Float.Model (UnpackedFloat)

theorem Double.value?_neg (x : Float) : value? (-x) = (value? x).map (- ·) := by
  unfold value?
  rw [shape_neg]
  cases shape x with
  | notANumber | infinity => rfl
  | zero s => simp [UnpackedFloat.neg]
  | finite s m e pos => cases s <;> simp [UnpackedFloat.neg, UnpackedFloat.Sign.apply]

namespace Decimal

variable {places : Nat} {k : Int} {x : Float}

/-! ### Rounding to places -/

/-- A finite double in steps of `10^-places`, rounded to the nearest step. -/
def signedSteps (places : Nat) (x : Float) : Int :=
  if isNegative x then -(stepsOf places x : Int) else stepsOf places x

theorem natAbs_signedSteps : (signedSteps places x).natAbs = stepsOf places x := by
  unfold signedSteps
  split
  · rw [Int.natAbs_neg, Int.natAbs_natCast]
  · rw [Int.natAbs_natCast]

theorem rounds_signedSteps (places : Nat) {q : Rat} (own : value? x = some q) :
    Rounds (q * 10 ^ places) (signedSteps places x) := by
  have nearest : Rounds ((units x : Rat) / unitsPerOne * 10 ^ places) (stepsOf places x : Nat) := by
    have rounds :=
      Binary64.rounds_roundHalfEven (units x * Nat.pow 10 places) Binary64.unitsPerOne_pos
    have scaled : ((units x * Nat.pow 10 places : Nat) : Rat) / unitsPerOne =
        (units x : Rat) / unitsPerOne * 10 ^ places := by
      rw [Nat.pow_eq]
      push_cast
      ring
    rwa [scaled] at rounds
  rw [Binary64.value?_eq (Binary64.isFinite_of_value? own), Option.some_inj] at own
  rw [← own, signedSteps]
  split
  · rw [neg_mul]
    exact nearest.neg
  · exact nearest

theorem toList_roundedText_eq (places : Nat) (finite : x.isFinite = true) :
    (roundedText places x).toList = (if stepsOf places x = 0 then [] else signOf x) ++
      (withoutZeros places (stepsOf places x)).positional := by
  obtain ⟨number, bounded⟩ := Double.isFinite_iff.mp finite
  rw [roundedText, number, bounded]
  exact String.toList_ofList

theorem toList_roundedText (places : Nat) (finite : x.isFinite = true) :
    (roundedText places x).toList = (plain places (signedSteps places x)).chars := by
  have sign : signChars (minusOf (signedSteps places x)) =
      if stepsOf places x = 0 then [] else signOf x := by
    unfold minusOf signedSteps signOf
    cases isNegative x with
    | true =>
      by_cases zero : stepsOf places x = 0
      · rw [if_pos zero, zero]; rfl
      · rw [if_neg zero, if_pos rfl, if_pos (by omega)]; rfl
    | false =>
      rw [if_neg Bool.false_ne_true, if_neg (by omega), if_neg Bool.false_ne_true, ite_self]
      rfl
  rw [toList_roundedText_eq places finite, chars_plain, natAbs_signedSteps, sign]

/-! ### Reading back -/

theorem value_nonneg (d : Decimal) : 0 ≤ d.value := by
  unfold value
  positivity

/-- The double that a literal is read as is as near to it as any other double, and it is finite if a
    finite double is within one of it. -/
theorem Literal.value_nearest {l : Literal} (low : -400 ≤ l.decimal.exponent)
    (high : l.decimal.exponent ≤ 400) {q : Rat} (own : value? x = some q)
    (close : |l.rational - q| ≤ 1) :
    ∃ z, value? l.value = some z ∧ |l.rational - z| ≤ |l.rational - q| := by
  have size : abs l.rational = l.decimal.value := by
    unfold Literal.rational
    split
    · rw [abs_neg, abs_of_nonneg l.decimal.value_nonneg]
    · rw [abs_of_nonneg l.decimal.value_nonneg]
  have smaller : |l.decimal.value - abs q| ≤ |l.rational - q| := by
    rw [← size]
    exact abs_abs_sub_abs_le _ _
  obtain ⟨z, read, nearest⟩ := toFloat_nearest low high own (smaller.trans close)
  have within := nearest.trans smaller
  unfold Literal.value
  by_cases minus : l.sign = some .minus
  · refine ⟨-z, by rw [if_pos minus, Double.value?_neg, read]; rfl, ?_⟩
    have mirrored : |l.rational - -z| = |l.decimal.value - z| := by
      rw [Literal.rational, if_pos minus, ← abs_neg]
      ring_nf
    rw [mirrored]
    exact within
  · refine ⟨z, by rw [if_neg minus, read], ?_⟩
    have same : l.rational = l.decimal.value := if_neg minus
    rw [same] at within ⊢
    exact within

/-- The text of a multiple reads as a double that is rounded to the multiple, if any double is. -/
theorem read?_plain (few : places ≤ 400) {q : Rat} (own : value? x = some q)
    (rounds : Rounds (q * 10 ^ places) k) :
    ∃ y r, read? (plain places k).chars = some y ∧ value? y = some r ∧
      Rounds (r * 10 ^ places) k := by
  have scale : (1 : Rat) ≤ 10 ^ places := one_le_pow₀ (by norm_num)
  have positive : (0 : Rat) < 10 ^ places := one_pos.trans_le scale
  have scaled (p : Rat) :
      |p * 10 ^ places - k| = |(plain places k).rational - p| * 10 ^ places := by
    rw [rational_plain, ← abs_of_pos positive, ← abs_mul, abs_of_pos positive, sub_mul,
      div_mul_cancel₀ _ positive.ne', abs_sub_comm]
  have exponent : -400 ≤ (plain places k).decimal.exponent ∧
      (plain places k).decimal.exponent ≤ 400 := by
    obtain ⟨shown, digits, own, _, short, _⟩ := exists_plain_eq places k
    rw [own, decimal_inPlaces]
    exact ⟨by simp only; omega, by simp only; omega⟩
  have near : |(plain places k).rational - q| * 10 ^ places ≤ 1 / 2 := by
    rw [← scaled]
    exact (Rounds.iff_half.mp rounds).1
  have close : |(plain places k).rational - q| ≤ 1 := by
    have grown := le_mul_of_one_le_right (abs_nonneg ((plain places k).rational - q)) scale
    linarith
  obtain ⟨z, read, nearest⟩ := Literal.value_nearest exponent.1 exponent.2 own close
  refine ⟨_, z, read?_chars _, read, rounds.of_closer ?_⟩
  rw [scaled, scaled]
  exact mul_le_mul_of_nonneg_right nearest positive.le

/-! ### Cutting zeros off a text -/

/-- A double with all its places, rounded to the last one, with the sign of zero kept. -/
def fixedText (places : Nat) (x : Float) : List Char :=
  if x.isNaN then ['N', 'a', 'N']
  else if x.isInf then signOf x ++ ['i', 'n', 'f']
  else (inPlaces (if isNegative x then some .minus else none) places (stepsOf places x)).chars

/-- The text without the zeros and the points at its end, and a zero without its minus. -/
def cutZeros (text : List Char) : List Char :=
  if cutEnd text = ['-', '0'] then ['0'] else cutEnd text

theorem cutEnd_fixedText (positive : 0 < places) (finite : x.isFinite = true) :
    cutEnd (fixedText places x) =
      signOf x ++ (withoutZeros places (stepsOf places x)).positional := by
  obtain ⟨places, rfl⟩ := Nat.exists_eq_succ_of_ne_zero positive.ne'
  obtain ⟨number, bounded⟩ := Double.isFinite_iff.mp finite
  have sign : signChars (if isNegative x then some .minus else none) = signOf x := by
    unfold signOf
    split <;> rfl
  rw [fixedText, number, bounded, if_neg Bool.false_ne_true, if_neg Bool.false_ne_true]
  rw [chars_inPlaces_succ, sign]
  exact cutEnd_places (signOf x) (places + 1) _

/-- The rounded text is the text with all places without what is cut off its end. -/
theorem cutZeros_fixedText (positive : 0 < places) (x : Float) :
    cutZeros (fixedText places x) = (roundedText places x).toList := by
  cases finite : x.isFinite with
  | true =>
    have own := toList_roundedText_eq places finite
    rw [cutZeros, cutEnd_fixedText positive finite]
    by_cases zero : stepsOf places x = 0
    · rw [own, zero, if_pos rfl, withoutZeros_zero]
      unfold signOf
      cases isNegative x <;> rfl
    · rw [if_neg zero] at own
      rw [← own, if_neg]
      rw [toList_roundedText places finite]
      exact plain_ne_minus_zero _ _
  | false =>
    cases number : x.isNaN with
    | true =>
      rw [fixedText, roundedText, number, if_pos rfl, if_pos rfl]
      decide
    | false =>
      have infinite : x.isInf = true := by
        by_contra bounded
        rw [Double.isFinite_iff.mpr ⟨number, Bool.not_eq_true _ ▸ bounded⟩] at finite
        cases finite
      simp only [fixedText, roundedText, text, shortestText, number, infinite, signOf,
        Bool.false_eq_true, if_true, if_false, String.toList_ofList]
      cases isNegative x <;> decide

end Decimal

/-! ### The listed number -/

open Decimal (Literal)

/-- The number that is listed for a finite double is the plain notation of the multiple of `10^-6`
    that is nearest to it, of two equally near ones the even one, and zero is listed without a sign. So
    two doubles are listed alike just if they are rounded to one multiple, and what is listed is read
    as a double that is listed alike. It is also what is left of six places without the zeros and the
    point at the end. -/
theorem number_canonical (x : Float) (finite : x.isFinite = true) :
    ∃ (q : Rat) (k : Int) (l : Literal), value? x = some q ∧ Rounds (q * 10 ^ 6) k ∧
      l.chars = (Listing.number x).toList ∧ l.Plain 6 k ∧
      (∀ m : Literal, m.Plain 6 k → m = l) ∧ Listing.number x ≠ "-0" ∧
      (∀ (y : Float) (r : Rat) (j : Int), value? y = some r → Rounds (r * 10 ^ 6) j →
        (Listing.number x = Listing.number y ↔ k = j)) ∧
      (∃ y, Decimal.read? (Listing.number x).toList = some y ∧ y.isFinite = true ∧
        Listing.number y = Listing.number x) ∧
      Decimal.cutZeros (Decimal.fixedText 6 x) = (Listing.number x).toList := by
  obtain ⟨q, own⟩ := Option.isSome_iff_exists.mp ((Double.isSome_value? x).trans finite)
  have rounds := Decimal.rounds_signedSteps 6 own
  have listed {y : Float} {r : Rat} {j : Int} (value : value? y = some r)
      (nearest : Rounds (r * 10 ^ 6) j) :
      (Listing.number y).toList = (Decimal.plain 6 j).chars := by
    rw [← (Decimal.rounds_signedSteps 6 value).unique nearest]
    exact Decimal.toList_roundedText 6 (Binary64.isFinite_of_value? value)
  have text := listed own rounds
  generalize Decimal.signedSteps 6 x = k at *
  have plain := Decimal.plain_plain 6 k
  refine ⟨q, k, Decimal.plain 6 k, own, rounds, text.symm, plain, fun m other => other.unique plain,
    ?_, ?_, ?_, Decimal.cutZeros_fixedText (by decide) x⟩
  · intro minus
    rw [minus] at text
    exact Decimal.plain_ne_minus_zero 6 k text.symm
  · intro y r j value nearest
    rw [← String.toList_inj, text, listed value nearest]
    exact ⟨Decimal.plain_inj, congrArg fun k => (Decimal.plain 6 k).chars⟩
  · obtain ⟨y, r, read, value, nearest⟩ := Decimal.read?_plain (by decide) own rounds
    refine ⟨y, text ▸ read, Binary64.isFinite_of_value? value, ?_⟩
    rw [← String.toList_inj, text, listed value nearest]


/-- The double `-3/128` is in the middle between two multiples of `10^-6`, and the next one is not. -/
theorem middle_canonical : (-0.0234375 : Float).isFinite = true ∧
    value? (-0.0234375) = some (-3 / 128) ∧ Rounds (-3 / 128 * 10 ^ 6) (-23438) ∧
    Listing.number (-0.0234375) = "-0.023438" ∧
    (∃ l : Literal, l.chars = "-0.023438".toList ∧ l.Plain 6 (-23438) ∧
      ∀ m : Literal, m.Plain 6 (-23438) → m = l) ∧
    Listing.number (-0.0234375) = Listing.number (-0.023437559604644775390625) ∧
    (∃ y, Decimal.read? "-0.023438".toList = some y ∧ y.isFinite = true ∧
      Listing.number y = "-0.023438") ∧
    Decimal.cutZeros (Decimal.fixedText 6 (-0.0234375)) = "-0.023438".toList := by
  have finite : (-0.0234375 : Float).isFinite = true := by decide +kernel
  have own : value? (-0.0234375) = some (-3 / 128) := by decide +kernel
  have next : value? (-0.023437559604644775390625) = some (-393217 / 2 ^ 24) := by decide +kernel
  have middle : Rounds (-3 / 128 * 10 ^ 6) (-23438) := by
    rw [Rounds.iff_half, abs_of_pos (by norm_num)]
    exact ⟨by norm_num, fun _ => by decide⟩
  have above : Rounds (-393217 / 2 ^ 24 * 10 ^ 6) (-23438) := by
    rw [Rounds.iff_half, abs_of_pos (by norm_num)]
    exact ⟨by norm_num, fun _ => by decide⟩
  have text : Listing.number (-0.0234375) = "-0.023438" := by decide +kernel
  obtain ⟨q, k, l, value, nearest, chars, plain, only, _, alike, read, cut⟩ :=
    number_canonical _ finite
  cases own.symm.trans value
  cases middle.unique nearest
  refine ⟨finite, own, middle, text, ⟨l, ?_, plain, only⟩, (alike _ _ _ next above).mpr rfl, ?_, ?_⟩
  · rw [chars, text]
  · rwa [text] at read
  · rw [cut, text]

end Simplex
