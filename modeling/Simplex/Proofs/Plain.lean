import Mathlib.Data.List.DropRight
import Simplex.Proofs.Nearest

/-!
Plain notation. A multiple of a negative power of ten is written with a minus if it is negative, with
all its whole digits and with the digits behind the point up to the last one that is no zero. There is
one literal like this for each multiple. It is also what is left of the number with all its places
when the zeros and then the point at its end are cut off.
-/
namespace Simplex

namespace Decimal

/-! ### Digits in places -/

theorem isDigit_digitChar_mod (n : Nat) : (Nat.digitChar (n % 10)).isDigit = true := by
  rw [Nat.isDigit_digitChar]
  exact decide_eq_true (Nat.mod_lt n (by decide))

theorem not_point_of_isDigit {c : Char} (digit : c.isDigit = true) : ¬ (c == '.') = true := by
  rw [beq_iff_eq]
  rintro rfl
  cases digit

/-- The last digits of a number, with zeros in front if it has fewer. -/
def lastDigits : (count n : Nat) → List Char
  | 0, _ => []
  | count + 1, n => lastDigits count (n / 10) ++ [Nat.digitChar (n % 10)]

@[simp] theorem length_lastDigits (count n : Nat) : (lastDigits count n).length = count := by
  induction count generalizing n with
  | zero => rfl
  | succ count ih => simp [lastDigits, ih]

theorem isDigit_of_mem_lastDigits {count n : Nat} {c : Char} (member : c ∈ lastDigits count n) :
    c.isDigit = true := by
  induction count generalizing n with
  | zero => cases member
  | succ count ih =>
    rcases List.mem_append.mp member with before | last
    · exact ih before
    · rw [List.mem_singleton.mp last]
      exact isDigit_digitChar_mod n

theorem natOfDigits_concat (digits : List Char) (c : Char) :
    natOfDigits (digits ++ [c]) = 10 * natOfDigits digits + (c.toNat - '0'.toNat) := by
  rw [natOfDigits, Nat.ofDigitChars_append, Nat.ofDigitChars_cons]
  rfl

theorem toNat_digitChar {n : Nat} (small : n < 10) :
    (Nat.digitChar n).toNat - '0'.toNat = n := by
  decide +revert

/-- As many digits with the same value are the same digits. -/
theorem natOfDigits_inj {cs ds : List Char} (same : natOfDigits cs = natOfDigits ds)
    (length : cs.length = ds.length) (hc : ∀ c ∈ cs, c.isDigit = true)
    (hd : ∀ d ∈ ds, d.isDigit = true) : cs = ds := by
  induction cs using List.reverseRecOn generalizing ds with
  | nil => exact (List.length_eq_zero_iff.mp length.symm).symm
  | append_singleton cs c ih =>
    rcases List.eq_nil_or_concat' ds with rfl | ⟨ds, d, rfl⟩
    · simp at length
    · rw [natOfDigits_concat, natOfDigits_concat] at same
      rw [List.length_append, List.length_append] at length
      obtain ⟨before, last⟩ := List.forall_mem_append.mp hc
      obtain ⟨before', last'⟩ := List.forall_mem_append.mp hd
      have low := Char.isDigit_iff_toNat.mp (last c List.mem_cons_self)
      have low' := Char.isDigit_iff_toNat.mp (last' d List.mem_cons_self)
      simp only [Char.reduceToNat] at same low low'
      have equal : c = d := Char.toNat_inj.mp (by omega)
      rw [ih (by omega) (Nat.add_right_cancel length) before before', equal]

theorem natOfDigits_lastDigits (count n : Nat) :
    natOfDigits (Nat.toDigits 10 (n / 10 ^ count) ++ lastDigits count n) = n := by
  induction count generalizing n with
  | zero => rw [Nat.pow_zero, Nat.div_one, lastDigits, List.append_nil, natOfDigits_toDigits]
  | succ count ih =>
    rw [lastDigits, ← List.append_assoc, natOfDigits_concat,
      toNat_digitChar (Nat.mod_lt n (by decide)), Nat.pow_succ', ← Nat.div_div_eq_div_mul, ih,
      Nat.div_add_mod]

/-- With zeros in front, the digits of a number are those before its last ones and the last ones. -/
theorem padded_eq (count n : Nat) :
    List.replicate (count + 1 - (Nat.toDigits 10 n).length) '0' ++ Nat.toDigits 10 n =
      Nat.toDigits 10 (n / 10 ^ count) ++ lastDigits count n := by
  induction count generalizing n with
  | zero =>
    have written : 0 < (Nat.toDigits 10 n).length := Nat.length_toDigits_pos
    rw [show 0 + 1 - (Nat.toDigits 10 n).length = 0 by omega, Nat.pow_zero, Nat.div_one, lastDigits,
      List.append_nil]
    rfl
  | succ count ih =>
    have before := ih (n / 10)
    rw [Nat.div_div_eq_div_mul, ← Nat.pow_succ'] at before
    rw [lastDigits, ← List.append_assoc, ← before]
    by_cases single : n < 10
    · have none : Nat.toDigits 10 (n / 10) = ['0'] := by rw [Nat.div_eq_of_lt single]; rfl
      rw [none, Nat.toDigits_of_lt_base single, Nat.mod_eq_of_lt single]
      simp [← List.replicate_succ']
    · rw [Nat.toDigits_of_base_le (by decide) (Nat.not_lt.mp single), List.length_append,
        List.append_assoc, List.length_singleton, Nat.add_sub_add_right]

/-- The digits of a fraction that may be missing. -/
def fractionDigits (f : Option Digits) : List Char := f.elim [] Digits.chars

theorem isDigit_of_mem_fractionDigits {f : Option Digits} {c : Char}
    (member : c ∈ fractionDigits f) : c.isDigit = true := by
  cases f with
  | none => cases member
  | some d => exact d.all c member

theorem fractionDigits_inj {f g : Option Digits} (same : fractionDigits f = fractionDigits g) :
    f = g := by
  cases f with
  | none => cases g with
    | none => rfl
    | some d => exact absurd same.symm d.nonempty
  | some c => cases g with
    | none => exact absurd same c.nonempty
    | some d => exact congrArg some (Digits.ext same)

theorem Literal.decimal_of_no_exponent {l : Literal} (none : l.exponent = none) :
    l.decimal = ⟨natOfDigits (l.whole.chars ++ fractionDigits l.fraction),
      0 - ((fractionDigits l.fraction).length : Int)⟩ := by
  unfold Literal.decimal
  rw [none]
  rfl

/-- The number `n * 10^-places` with all its places, as a literal. -/
def inPlaces (s : Option Sign) (places n : Nat) : Literal where
  sign := s
  whole :=
    ⟨Nat.toDigits 10 (n / 10 ^ places), Nat.toDigits_ne_nil, fun _ => isDigit_of_mem_toDigits⟩
  fraction :=
    if empty : lastDigits places n = [] then none
    else some ⟨lastDigits places n, empty, fun _ => isDigit_of_mem_lastDigits⟩
  exponent := none

variable {s : Option Sign} {places n : Nat} {k : Int}

theorem fractionDigits_inPlaces :
    fractionDigits (inPlaces s places n).fraction = lastDigits places n := by
  unfold inPlaces fractionDigits
  by_cases empty : lastDigits places n = [] <;> simp [empty]

theorem decimal_inPlaces : (inPlaces s places n).decimal = ⟨n, -(places : Nat)⟩ := by
  rw [Literal.decimal_of_no_exponent rfl, fractionDigits_inPlaces, length_lastDigits, zero_sub]
  exact congrArg (Decimal.mk · _) (natOfDigits_lastDigits places n)

theorem chars_inPlaces_zero : (inPlaces s 0 n).chars = signChars s ++ Nat.toDigits 10 n := by
  simp [inPlaces, Literal.chars, lastDigits, fractionChars, exponentChars]

theorem chars_inPlaces_succ : (inPlaces s (places + 1) n).chars =
    signChars s ++
      (Nat.toDigits 10 (n / 10 ^ (places + 1)) ++ '.' :: lastDigits (places + 1) n) := by
  simp [inPlaces, Literal.chars, lastDigits, fractionChars, exponentChars]

/-- Positional notation writes a number with all its places. -/
theorem chars_inPlaces (s : Option Sign) (places n : Nat) :
    (inPlaces s places n).chars = signChars s ++ positional ⟨n, -(places : Nat)⟩ := by
  cases places with
  | zero =>
    rw [chars_inPlaces_zero]
    show _ = signChars s ++ (Nat.toDigits 10 n ++ [])
    rw [List.append_nil]
  | succ places =>
    rw [chars_inPlaces_succ]
    show _ = signChars s ++ positional ⟨n, .negSucc places⟩
    unfold positional
    simp only
    rw [padded_eq (places + 1) n, List.length_append, length_lastDigits, Nat.add_sub_cancel,
      List.take_left' rfl, List.drop_left' rfl]

/-! ### Zeros at the end of a fraction -/

theorem withoutZeros_spec (places n : Nat) : ∃ shown digits : Nat,
    withoutZeros places n = ⟨digits, -(shown : Nat)⟩ ∧ shown ≤ places ∧
      digits / 10 ^ shown = n / 10 ^ places ∧ (shown = 0 ∨ digits % 10 ≠ 0) := by
  induction places generalizing n with
  | zero => exact ⟨0, n, rfl, Nat.le_refl 0, rfl, .inl rfl⟩
  | succ places ih =>
    unfold withoutZeros
    by_cases zero : n % 10 = 0
    · obtain ⟨shown, digits, own, short, whole, last⟩ := ih (n / 10)
      rw [if_pos zero]
      rw [Nat.div_div_eq_div_mul, ← Nat.pow_succ'] at whole
      exact ⟨shown, digits, own, Nat.le_succ_of_le short, whole, last⟩
    · rw [if_neg zero]
      exact ⟨places + 1, n, rfl, Nat.le_refl _, rfl, .inr zero⟩

theorem value_withoutZeros (places n : Nat) :
    (withoutZeros places n).value = (n : Rat) / 10 ^ places := by
  induction places generalizing n with
  | zero => simp [withoutZeros, value]
  | succ places ih =>
    unfold withoutZeros
    by_cases zero : n % 10 = 0
    · obtain ⟨m, rfl⟩ := Nat.dvd_of_mod_eq_zero zero
      rw [if_pos zero, ih, Nat.mul_div_cancel_left m (by decide), pow_succ', Nat.cast_mul,
        Nat.cast_ofNat, mul_div_mul_left _ _ (by norm_num)]
    · rw [if_neg zero, value, zpow_neg, zpow_natCast, div_eq_mul_inv]

theorem withoutZeros_zero (places : Nat) : withoutZeros places 0 = ⟨0, 0⟩ := by
  induction places with
  | zero => rfl
  | succ places ih => exact ih

/-! ### The literal of a multiple -/

/-- The number that a literal writes. -/
def Literal.rational (l : Literal) : Rat :=
  if l.sign = some .minus then -l.decimal.value else l.decimal.value

/-- The minus of a negative number. -/
def minusOf (k : Int) : Option Sign := if k < 0 then some .minus else none

/-- The literal is plain notation of `k * 10^-places`: it has a minus only before a negative number,
    all digits before the point without zeros in front, at most as many digits behind the point as
    there are places, the last of which is no zero, and no exponent. -/
structure Literal.Plain (places : Nat) (k : Int) (l : Literal) : Prop where
  value : l.rational = k / 10 ^ places
  sign : l.sign = minusOf k
  whole : l.whole.chars = Nat.toDigits 10 (k.natAbs / 10 ^ places)
  short : (fractionDigits l.fraction).length ≤ places
  trimmed : (fractionDigits l.fraction).getLast? ≠ some '0'
  exponent : l.exponent = none

/-- The number `k * 10^-places` without the zeros that end its fraction, as a literal. -/
def plain (places : Nat) (k : Int) : Literal :=
  let d := withoutZeros places k.natAbs
  inPlaces (minusOf k) d.exponent.natAbs d.digits

theorem exists_plain_eq (places : Nat) (k : Int) : ∃ shown digits : Nat,
    plain places k = inPlaces (minusOf k) shown digits ∧
      withoutZeros places k.natAbs = ⟨digits, -(shown : Nat)⟩ ∧ shown ≤ places ∧
      digits / 10 ^ shown = k.natAbs / 10 ^ places ∧ (shown = 0 ∨ digits % 10 ≠ 0) := by
  obtain ⟨shown, digits, own, rest⟩ := withoutZeros_spec places k.natAbs
  refine ⟨shown, digits, ?_, own, rest⟩
  unfold plain
  simp only [own, Int.natAbs_neg, Int.natAbs_natCast]

theorem decimal_plain (places : Nat) (k : Int) :
    (plain places k).decimal = withoutZeros places k.natAbs := by
  obtain ⟨shown, digits, own, decimal, _⟩ := exists_plain_eq places k
  rw [own, decimal_inPlaces, decimal]

theorem chars_plain (places : Nat) (k : Int) : (plain places k).chars =
    signChars (minusOf k) ++ (withoutZeros places k.natAbs).positional := by
  obtain ⟨shown, digits, own, decimal, _⟩ := exists_plain_eq places k
  rw [own, chars_inPlaces, decimal]

theorem rational_plain (places : Nat) (k : Int) : (plain places k).rational = k / 10 ^ places := by
  have sign : (plain places k).sign = minusOf k := rfl
  rw [Literal.rational, sign, decimal_plain, value_withoutZeros, minusOf, Nat.cast_natAbs]
  by_cases negative : k < 0
  · rw [if_pos negative, if_pos rfl, abs_of_neg negative]
    push_cast
    ring
  · rw [if_neg negative, if_neg nofun, abs_of_nonneg (not_lt.mp negative)]

theorem plain_plain (places : Nat) (k : Int) : (plain places k).Plain places k := by
  obtain ⟨shown, digits, own, _, short, whole, last⟩ := exists_plain_eq places k
  refine ⟨rational_plain places k, rfl, ?_, ?_, ?_, rfl⟩
  · rw [own, ← whole]
    rfl
  · rw [own, fractionDigits_inPlaces, length_lastDigits]
    exact short
  · rw [own, fractionDigits_inPlaces]
    cases shown with
    | zero => nofun
    | succ shown =>
      rw [lastDigits, List.getLast?_concat, ne_eq, Option.some_inj, Nat.digitChar_eq_zero]
      exact last.resolve_left (Nat.succ_ne_zero shown)

theorem rdropWhile_zeros {cs : List Char} (trimmed : cs.getLast? ≠ some '0') (count : Nat) :
    (cs ++ List.replicate count '0').rdropWhile (· == '0') = cs := by
  induction count with
  | zero =>
    rw [List.replicate_zero, List.append_nil, List.rdropWhile_eq_self_iff]
    intro nonempty zero
    rw [List.getLast?_eq_some_getLast nonempty, beq_iff_eq.mp zero] at trimmed
    exact trimmed rfl
  | succ count ih =>
    rw [List.replicate_succ', ← List.append_assoc, List.rdropWhile_concat_pos _ _ _ (by decide), ih]

theorem natOfDigits_mul_of_value {n m a b : Nat}
    (same : value ⟨n, 0 - (a : Int)⟩ = value ⟨m, 0 - (b : Int)⟩) : n * 10 ^ b = m * 10 ^ a := by
  simp only [value, zero_sub, zpow_neg, zpow_natCast, ← div_eq_mul_inv] at same
  rw [div_eq_div_iff (by positivity) (by positivity)] at same
  exact_mod_cast same

/-- A number has one plain notation. -/
theorem Literal.Plain.unique {l m : Literal} (hl : l.Plain places k) (hm : m.Plain places k) :
    l = m := by
  have sign : l.sign = m.sign := hl.sign.trans hm.sign.symm
  have whole : l.whole.chars = m.whole.chars := hl.whole.trans hm.whole.symm
  have value : l.decimal.value = m.decimal.value := by
    have same := hl.value.trans hm.value.symm
    rw [Literal.rational, Literal.rational, sign] at same
    split at same
    · exact neg_inj.mp same
    · exact same
  rw [Literal.decimal_of_no_exponent hl.exponent, Literal.decimal_of_no_exponent hm.exponent,
    whole] at value
  -- with zeros behind them both fractions are equally long
  have digits := natOfDigits_mul_of_value value
  rw [← natOfDigits_append_zeros, ← natOfDigits_append_zeros] at digits
  have all {f : Option Digits} (count : Nat) : ∀ c ∈ m.whole.chars ++ fractionDigits f ++
      List.replicate count '0', c.isDigit = true := by
    refine List.forall_mem_append.mpr ⟨List.forall_mem_append.mpr ⟨m.whole.all, ?_⟩, ?_⟩
    · exact fun _ => isDigit_of_mem_fractionDigits
    · intro c member
      rw [List.eq_of_mem_replicate member]
      rfl
  have filled := natOfDigits_inj digits
    (by simp only [List.length_append, List.length_replicate]; omega) (all _) (all _)
  rw [List.append_assoc, List.append_assoc, List.append_cancel_left_eq] at filled
  have cut := congrArg (List.rdropWhile (· == '0')) filled
  rw [rdropWhile_zeros hl.trimmed, rdropWhile_zeros hm.trimmed] at cut
  exact Literal.ext sign (Digits.ext whole) (fractionDigits_inj cut)
    (hl.exponent.trans hm.exponent.symm)

/-- Zero has no sign. -/
theorem plain_ne_minus_zero (places : Nat) (k : Int) : (plain places k).chars ≠ ['-', '0'] := by
  intro same
  -- the text is that of the zero with a minus, and of no other literal
  have minus : (inPlaces (some .minus) 0 0).chars = ['-', '0'] := chars_inPlaces_zero
  have zero : plain places k = inPlaces (some .minus) 0 0 := Literal.chars_inj (same.trans minus.symm)
  have sign : minusOf k = some .minus := congrArg Literal.sign zero
  have value := rational_plain places k
  rw [zero, Literal.rational, decimal_inPlaces] at value
  have none : k = 0 := by simpa [Decimal.value, inPlaces] using value.symm
  rw [none] at sign
  cases sign

theorem plain_inj {j : Int} (same : (plain places k).chars = (plain places j).chars) : k = j := by
  have value := congrArg Literal.rational (Literal.chars_inj same)
  rw [rational_plain, rational_plain, div_left_inj' (by positivity)] at value
  exact_mod_cast value

/-! ### Cutting zeros off the end -/

/-- The text without the zeros at its end and then without the points there. -/
def cutEnd (text : List Char) : List Char :=
  (text.rdropWhile (· == '0')).rdropWhile (· == '.')

theorem cutEnd_point (before : List Char) (n : Nat) :
    cutEnd (before ++ (Nat.toDigits 10 n ++ ['.'])) = before ++ Nat.toDigits 10 n := by
  have nonempty : Nat.toDigits 10 n ≠ [] := Nat.toDigits_ne_nil
  rw [cutEnd, ← List.append_assoc, List.rdropWhile_concat_neg _ _ _ (by decide),
    List.rdropWhile_concat_pos _ _ _ (by decide), List.rdropWhile_eq_self_iff]
  intro _
  rw [List.getLast_append_of_ne_nil _ nonempty]
  exact not_point_of_isDigit (isDigit_of_mem_toDigits (List.getLast_mem nonempty))

/-- Cutting zeros off the places cuts them off the number, place by place. -/
theorem cutEnd_places (before : List Char) (places n : Nat) :
    cutEnd (before ++ (Nat.toDigits 10 (n / 10 ^ places) ++ '.' :: lastDigits places n)) =
      before ++ (withoutZeros places n).positional := by
  induction places generalizing n with
  | zero =>
    have whole : positional ⟨n, 0⟩ = Nat.toDigits 10 n := List.append_nil _
    rw [Nat.pow_zero, Nat.div_one, withoutZeros, whole]
    exact cutEnd_point before n
  | succ places ih =>
    have last :
        before ++ (Nat.toDigits 10 (n / 10 ^ (places + 1)) ++ '.' :: lastDigits (places + 1) n) =
          before ++ (Nat.toDigits 10 (n / 10 / 10 ^ places) ++ '.' :: lastDigits places (n / 10)) ++
            [Nat.digitChar (n % 10)] := by
      rw [lastDigits, Nat.div_div_eq_div_mul, ← Nat.pow_succ']
      simp only [List.append_assoc, List.cons_append]
    unfold withoutZeros
    by_cases zero : n % 10 = 0
    · rw [if_pos zero, ← ih (n / 10), last, zero, cutEnd,
        List.rdropWhile_concat_pos _ _ _ (by decide)]
      rfl
    · have nonzero : ¬ (Nat.digitChar (n % 10) == '0') = true := by
        rw [beq_iff_eq, Nat.digitChar_eq_zero]
        exact zero
      have noPoint := not_point_of_isDigit (isDigit_digitChar_mod n)
      rw [if_neg zero, last, cutEnd, List.rdropWhile_concat_neg (· == '0') _ _ nonzero,
        List.rdropWhile_concat_neg (· == '.') _ _ noPoint, ← last]
      have written := chars_inPlaces_succ.symm.trans (chars_inPlaces none (places + 1) n)
      exact congrArg (before ++ ·) written

end Decimal

end Simplex
