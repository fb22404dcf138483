import Simplex.Expression.Printer
import Simplex.Proofs.Grammar
import Simplex.Proofs.RoundTrip

/-!
Terms as they are written. A term is written as a chunk for the same term, behind its sign or, if it
comes first, without a plus. What follows can make the chunk longer in one way only: a name that
begins like a power of ten is read as part of the number before it.
-/
namespace Simplex

open Decimal (Sign Digits Literal signChars fractionChars shortestText)
open Text (BeginsOutside isNameChar isBlank)

/-! ### Characters -/

namespace Text

/-- No code point is that of a letter or a number and that of a blank. -/
theorem disjoint_ranges : ∀ r ∈ alphanumericRanges, ∀ b ∈ blankRanges, r.2 < b.1 ∨ b.2 < r.1 := by
  decide +kernel

theorem blankRanges_ascii : ∀ b ∈ blankRanges, b.2 < 48 ∨ 128 ≤ b.1 := by decide

theorem le_toNat_of_isAlphanum {c : Char} (letter : c.isAlphanum = true) : 48 ≤ c.toNat := by
  simp only [Char.isAlphanum, Char.isAlpha, Char.isUpper, Char.isLower, Char.isDigit,
    Bool.or_eq_true, Bool.and_eq_true, decide_eq_true_eq, ge_iff_le, UInt32.le_iff_toNat_le] at letter
  change ((65 ≤ c.toNat ∧ c.toNat ≤ 90) ∨ (97 ≤ c.toNat ∧ c.toNat ≤ 122)) ∨
    (48 ≤ c.toNat ∧ c.toNat ≤ 57) at letter
  omega

/-- No blank stands in a name. -/
theorem not_isBlank_of_isNameChar {c : Char} (letter : isNameChar c = true) : isBlank c = false := by
  by_contra blank
  rw [Bool.not_eq_false, isBlank, inRanges, List.any_eq_true] at blank
  obtain ⟨b, member, within⟩ := blank
  rw [Bool.and_eq_true, decide_eq_true_eq, decide_eq_true_eq] at within
  rw [isNameChar, Bool.or_eq_true, beq_iff_eq] at letter
  rcases letter with rfl | letter
  · have code : '_'.toNat = 95 := rfl
    have apart := blankRanges_ascii b member
    omega
  · unfold isAlphanumeric at letter
    split at letter
    · have code := le_toNat_of_isAlphanum letter
      have apart := blankRanges_ascii b member
      omega
    · rw [inRanges, List.any_eq_true] at letter
      obtain ⟨r, own, between⟩ := letter
      rw [Bool.and_eq_true, decide_eq_true_eq, decide_eq_true_eq] at between
      have apart := disjoint_ranges r own b member
      omega

theorem isNameChar_of_isDigit {c : Char} (digit : c.isDigit = true) : isNameChar c = true := by
  have code : 48 ≤ c.toNat ∧ c.toNat ≤ 57 := by
    simpa [Char.isDigit, UInt32.le_iff_toNat_le] using digit
  have small : c.toNat < 128 := by omega
  have letter : c.isAlphanum = true := by rw [Char.isAlphanum, digit, Bool.or_true]
  rw [isNameChar, isAlphanumeric, if_pos small, letter, Bool.or_true]

end Text

namespace Expression

/-- The characters that expressions are written with, besides blanks. -/
def isWritten (c : Char) : Bool := isNameChar c || isSign c || c == '.'

theorem not_isBlank_of_isWritten {c : Char} (written : isWritten c = true) : isBlank c = false := by
  simp only [isWritten, isSign, Bool.or_eq_true, beq_iff_eq] at written
  rcases written with (letter | rfl | rfl) | rfl
  · exact Text.not_isBlank_of_isNameChar letter
  · decide
  · decide
  · decide

theorem isWritten_of_isDigit {c : Char} (digit : c.isDigit = true) : isWritten c = true := by
  rw [isWritten, Text.isNameChar_of_isDigit digit]
  rfl

theorem isWritten_of_isSign {c : Char} (sign : isSign c = true) : isWritten c = true := by
  rw [isWritten, sign, Bool.or_true]
  rfl

theorem signChars_written (s : Option Sign) : ∀ c ∈ signChars s, isWritten c = true :=
  Decimal.forall_signChars (fun _ => isWritten_of_isSign) s

theorem magnitude_written (d : Digits) (f : Option Digits) :
    ∀ c ∈ d.chars ++ fractionChars f, isWritten c = true :=
  Decimal.forall_magnitude (fun _ => isWritten_of_isDigit) (by decide) d f

/-- A letter that a power of ten begins with. -/
def isExponentLetter (c : Char) : Bool := c == 'e' || c == 'E'

theorem not_exponentLetter_of_isDigit {c : Char} (digit : c.isDigit = true) :
    isExponentLetter c = false := by
  unfold isExponentLetter
  rw [Bool.or_eq_false_iff, beq_eq_false_iff_ne, beq_eq_false_iff_ne]
  constructor <;> rintro rfl <;> cases digit

theorem not_exponentLetter_of_isSign {c : Char} (sign : isSign c = true) :
    isExponentLetter c = false := by
  simp only [isSign, Bool.or_eq_true, beq_iff_eq] at sign
  rcases sign with rfl | rfl <;> rfl

theorem signChars_not_exponentLetter (s : Option Sign) :
    ∀ c ∈ signChars s, isExponentLetter c = false :=
  Decimal.forall_signChars (fun _ => not_exponentLetter_of_isSign) s

theorem magnitude_not_exponentLetter (d : Digits) (f : Option Digits) :
    ∀ c ∈ d.chars ++ fractionChars f, isExponentLetter c = false :=
  Decimal.forall_magnitude (fun _ => not_exponentLetter_of_isDigit) rfl d f

end Expression

/-! ### Terms -/

namespace Term

open Expression (Chunk Identifier Lead isExponentLetter spanExponent endsTerm)

/-- The magnitude of the coefficient is written. -/
def showsMagnitude (t : Term Float) : Bool := t.isConstant || !(t.coefficient.abs == 1)

/-- The sign of the coefficient, as it is written. -/
def sign (t : Term Float) : Sign := if t.isNegative then .minus else .plus

/-- The sign of a term that comes first: a plus is left out. -/
def leadSign (t : Term Float) : Option Sign := if t.isNegative then some .minus else none

/-- What a term must have to be read from a text: a finite coefficient and letters, numbers and
    underscores for its name, without a digit from `0` to `9` at the beginning. -/
structure Writable (t : Term Float) : Prop where
  finite : t.coefficient.isFinite = true
  defined : t.minusUndefined = false
  letters : ∀ c ∈ t.name.toList, isNameChar c = true
  plain : BeginsOutside Char.isDigit t.name.toList

variable {t : Term Float} {s : Option Sign} {rest : List Char}

theorem exists_name (letters : ∀ c ∈ t.name.toList, isNameChar c = true) :
    ∃ n : Option Identifier, n.elim [] Identifier.chars = t.name.toList := by
  by_cases empty : t.name.toList = []
  · exact ⟨none, empty.symm⟩
  · exact ⟨some ⟨_, empty, letters⟩, rfl⟩

theorem beginsOutside_name_append {p : Char → Bool}
    (sign : ∀ c, Expression.isSign c = true → p c = false)
    (name : BeginsOutside p t.name.toList) (ends : endsTerm rest = true) :
    BeginsOutside p (t.name.toList ++ rest) := by
  by_cases empty : t.name.toList = []
  · rw [empty, List.nil_append]
    cases rest with
    | nil => exact Text.beginsOutside_nil
    | cons c rest => exact Text.beginsOutside_cons.mpr (sign c ends)
  · exact name.append empty rest

/-- Neither the name nor what follows it goes on with a digit or a point. -/
theorem Writable.not_digit (writable : t.Writable) (ends : endsTerm rest = true) :
    BeginsOutside Char.isDigit (t.name.toList ++ rest) := by
  refine beginsOutside_name_append (fun c sign => ?_) writable.plain ends
  by_contra digit
  rw [Decimal.not_sign_of_isDigit (by simpa using digit)] at sign
  cases sign

theorem Writable.not_point (writable : t.Writable) (ends : endsTerm rest = true) :
    BeginsOutside (· == '.') (t.name.toList ++ rest) := by
  refine beginsOutside_name_append (fun c sign => ?_) (fun c first => ?_) ends
  · simp only [Expression.isSign, Bool.or_eq_true, beq_iff_eq] at sign
    rcases sign with rfl | rfl <;> rfl
  · have letter := writable.letters c (List.mem_of_mem_head? first)
    by_contra point
    rw [Bool.not_eq_false, beq_iff_eq] at point
    rw [point] at letter
    exact absurd letter (by decide)

theorem Writable.isNegative_eq (writable : t.Writable) :
    t.isNegative = Binary64.isNegative t.coefficient := by
  rw [isNegative, writable.defined, Bool.or_false]

theorem Writable.exists_magnitude (writable : t.Writable) :
    ∃ (whole : Digits) (fraction : Option Digits),
      whole.chars ++ fractionChars fraction = shortestText t.coefficient.abs := by
  have finite := writable.finite
  rw [← Binary64.isFinite_abs] at finite
  obtain ⟨whole, fraction, chars, _⟩ := Decimal.exists_literal_of_isFinite finite
  exact ⟨whole, fraction, chars⟩

/-- A magnitude of one is left out for a sign. -/
theorem Writable.coefficient_of_not_shown (writable : t.Writable)
    (left : t.showsMagnitude = false) :
    t.isConstant = false ∧ t.coefficient = if t.isNegative then -1 else 1 := by
  rw [showsMagnitude, Bool.or_eq_false_iff, Bool.not_eq_false', Double.beq_one_iff] at left
  refine ⟨left.1, ?_⟩
  rw [writable.isNegative_eq, ← left.2]
  exact Binary64.eq_abs t.coefficient

theorem Writable.name_ne_nil (writable : t.Writable) (left : t.showsMagnitude = false) :
    t.name.toList ≠ [] := by
  intro none
  have named := (writable.coefficient_of_not_shown left).1
  rw [isConstant, String.toList_eq_nil_iff.mp none] at named
  cases named

/-- What is read as a power of ten behind a magnitude that is written, of the name and what
    follows. -/
def powerChars (t : Term Float) (rest : List Char) : List Char :=
  if t.showsMagnitude then (spanExponent (t.name.toList ++ rest)).1 else []

/-- A chunk is the term behind a sign that may be missing. A text with this chunk first begins as the
    chunk does, and goes on with a power of ten if the name is read as one. -/
structure WrittenAs (t : Term Float) (s : Option Sign) (c : Chunk) : Prop where
  chars : c.chars = signChars s ++ t.unsignedText
  term : c.term = t
  lead_span : ∀ rest, endsTerm rest = true →
    (Lead.span (c.chars ++ rest)).1.chars = c.lead.chars ++ t.powerChars rest
  longest : ∀ rest, endsTerm rest = true → t.powerChars rest = [] → c.Longest (c.chars ++ rest)

theorem unsignedText_eq (t : Term Float) : t.unsignedText =
    (if t.showsMagnitude then shortestText t.coefficient.abs else []) ++ t.name.toList := rfl

theorem exists_chunk_of_shown (writable : t.Writable) (shown : t.showsMagnitude = true)
    (signed : s = some .minus ↔ t.isNegative = true) : ∃ c, t.WrittenAs s c := by
  have finite := writable.finite
  rw [← Binary64.isFinite_abs] at finite
  rw [writable.isNegative_eq] at signed
  obtain ⟨whole, fraction, magnitude, value⟩ :=
    Decimal.exists_signed_literal finite (Binary64.abs_abs _) signed
  obtain ⟨n, name⟩ := exists_name writable.letters
  have chars : (Chunk.number ⟨s, whole, fraction, none⟩ n).chars =
      signChars s ++ (whole.chars ++ (fractionChars fraction ++ t.name.toList)) := by
    simp [Chunk.chars, Chunk.lead, Expression.Lead.chars, Literal.chars, Decimal.exponentChars,
      Chunk.name, name]
  have span (rest : List Char) (ends : endsTerm rest = true) :
      (Expression.spanLiteral ((Chunk.number ⟨s, whole, fraction, none⟩ n).chars ++ rest)).1 =
        (Literal.mk s whole fraction none).chars ++ t.powerChars rest := by
    rw [chars, powerChars, if_pos shown]
    simp [Decimal.spanLiteral_fraction s whole fraction (writable.not_digit ends)
      (writable.not_point ends), Literal.chars, Decimal.exponentChars]
  refine ⟨.number ⟨s, whole, fraction, none⟩ n, ?_, ?_, ?_, ?_⟩
  · rw [chars, unsignedText_eq, if_pos shown, ← magnitude, List.append_assoc]
  · obtain ⟨coefficient, own, flag⟩ := t
    rw [Chunk.term, Chunk.coefficient, value, Chunk.name, name, String.ofList_toList]
    exact congrArg _ writable.defined.symm
  · intro rest ends
    have nonempty := List.append_ne_nil_of_left_ne_nil
      (Literal.mk s whole fraction none).chars_ne_nil (t.powerChars rest)
    rw [← span rest ends] at nonempty
    rw [Lead.chars_span_of_literal nonempty, span rest ends]
    rfl
  · intro rest ends noPower
    show Literal.Longest _ _
    rw [Literal.longest_iff, span rest ends, noPower, List.append_nil]

theorem writtenAs_of_not_shown (writable : t.Writable) (left : t.showsMagnitude = false) {c : Chunk}
    (lead : c.lead.chars = signChars s) (name : c.name = t.name.toList)
    (value : c.coefficient = t.coefficient) (always : ∀ cs, c.Longest cs) : t.WrittenAs s c where
  chars := by rw [Chunk.chars, lead, name, unsignedText_eq, left]; rfl
  term := by
    obtain ⟨coefficient, own, flag⟩ := t
    rw [Chunk.term, value, name, String.ofList_toList]
    exact congrArg _ writable.defined.symm
  lead_span rest _ := by
    rw [Chunk.span (always _), powerChars, left]
    exact (List.append_nil _).symm
  longest _ _ _ := always _

theorem exists_chunk_of_not_shown (writable : t.Writable) (left : t.showsMagnitude = false)
    (signed : s = some .minus ↔ t.isNegative = true) : ∃ c, t.WrittenAs s c := by
  have coefficient := (writable.coefficient_of_not_shown left).2
  have nonempty := writable.name_ne_nil left
  simp only [← signed] at coefficient
  cases s with
  | none =>
    exact ⟨.bare ⟨_, nonempty, writable.letters⟩ writable.plain,
      writtenAs_of_not_shown writable left rfl rfl coefficient.symm fun _ => trivial⟩
  | some s =>
    refine ⟨.signed s ⟨_, nonempty, writable.letters⟩ writable.plain,
      writtenAs_of_not_shown writable left rfl rfl ?_ fun _ => trivial⟩
    cases s <;> exact coefficient.symm

/-- A term is written as a chunk. -/
theorem exists_chunk (writable : t.Writable) (signed : s = some .minus ↔ t.isNegative = true) :
    ∃ c, t.WrittenAs s c := by
  cases shown : t.showsMagnitude with
  | true => exact exists_chunk_of_shown writable shown signed
  | false => exact exists_chunk_of_not_shown writable shown signed

/-- A term without its sign begins with a digit just if its magnitude is written. -/
theorem Writable.beginsOutside_unsignedText (writable : t.Writable) (rest : List Char) :
    BeginsOutside Char.isDigit (t.unsignedText ++ rest) ↔ t.showsMagnitude = false := by
  rw [unsignedText_eq]
  cases shown : t.showsMagnitude with
  | true =>
    obtain ⟨whole, fraction, magnitude⟩ := writable.exists_magnitude
    obtain ⟨c, later, chars, digit, _⟩ := whole.exists_cons
    rw [if_pos rfl, ← magnitude, chars]
    show BeginsOutside Char.isDigit (c :: _) ↔ _
    rw [Text.beginsOutside_cons, digit]
  | false =>
    exact iff_of_true (writable.plain.append (writable.name_ne_nil shown) rest) rfl

theorem sign_eq_minus_iff (t : Term Float) :
    some t.sign = some Sign.minus ↔ t.isNegative = true := by
  unfold sign
  cases t.isNegative <;> simp

theorem leadSign_eq_minus_iff (t : Term Float) :
    t.leadSign = some Sign.minus ↔ t.isNegative = true := by
  unfold leadSign
  cases t.isNegative <;> simp

/-! ### Characters of terms -/

theorem Writable.unsignedText_written (writable : t.Writable) :
    ∀ c ∈ t.unsignedText, Expression.isWritten c = true := by
  intro c member
  rw [unsignedText_eq, List.mem_append] at member
  rcases member with magnitude | name
  · split at magnitude
    · obtain ⟨whole, fraction, chars⟩ := writable.exists_magnitude
      exact Expression.magnitude_written whole fraction c (chars ▸ magnitude)
    · cases magnitude
  · rw [Expression.isWritten, writable.letters c name]
    rfl

/-- A magnitude has no letter, so the letters of a term are those of its name. -/
theorem Writable.countP_unsignedText (writable : t.Writable) :
    t.unsignedText.countP isExponentLetter = t.name.toList.countP isExponentLetter := by
  rw [unsignedText_eq, List.countP_append, Nat.add_eq_right, List.countP_eq_zero]
  intro c member
  split at member
  · obtain ⟨whole, fraction, chars⟩ := writable.exists_magnitude
    rw [Expression.magnitude_not_exponentLetter whole fraction c (chars ▸ member)]
    exact Bool.false_ne_true
  · cases member

end Term

end Simplex
