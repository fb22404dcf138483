import Simplex.Expression.Reader
import Mathlib.Data.List.TakeWhile

/-!
Number literals. A literal is given by its parts, so that it has a value by itself: the double
nearest to the decimal that its digits write. The reader of expressions cuts the longest literal off
a text, and what it cuts off reads as the value of the literal.
-/
namespace Simplex

namespace Text

variable {p : Char → Bool} {cs rest : List Char}

/-- The text does not begin with a character of the class. -/
def BeginsOutside (p : Char → Bool) (cs : List Char) : Prop := ∀ c ∈ cs.head?, p c = false

@[simp] theorem beginsOutside_nil : BeginsOutside p [] := by simp [BeginsOutside]

@[simp] theorem beginsOutside_cons {c : Char} : BeginsOutside p (c :: cs) ↔ p c = false := by
  simp [BeginsOutside]

theorem beginsOutside_iff : BeginsOutside p cs ↔ cs.takeWhile p = [] := by
  cases cs with
  | nil => simp
  | cons c rest => by_cases inside : p c = true <;> simp [inside]

theorem BeginsOutside.takeWhile_eq_nil (h : BeginsOutside p cs) : cs.takeWhile p = [] :=
  beginsOutside_iff.mp h

theorem BeginsOutside.dropWhile_eq (h : BeginsOutside p cs) : cs.dropWhile p = cs := by
  cases cs with
  | nil => rfl
  | cons c rest => rw [List.dropWhile_cons, beginsOutside_cons.mp h]; rfl

theorem beginsOutside_dropWhile (p : Char → Bool) (cs : List Char) :
    BeginsOutside p (cs.dropWhile p) := by
  intro c first
  have outside := List.head?_dropWhile_not p cs
  rw [Option.mem_def.mp first] at outside
  exact outside

theorem BeginsOutside.append (h : BeginsOutside p cs) (nonempty : cs ≠ []) (rest : List Char) :
    BeginsOutside p (cs ++ rest) := by
  cases cs with
  | nil => exact absurd rfl nonempty
  | cons c later => exact beginsOutside_cons.mpr (beginsOutside_cons.mp h)

theorem BeginsOutside.of_append (h : BeginsOutside p (cs ++ rest)) : BeginsOutside p cs := by
  intro c first
  refine h c ?_
  rw [List.head?_append, Option.mem_def.mp first]
  rfl

theorem beginsOutside_of_all (all : ∀ c ∈ cs, p c = false) : BeginsOutside p cs :=
  fun c first => all c (List.mem_of_mem_head? first)

theorem takeWhile_append (all : ∀ c ∈ cs, p c = true) (stop : BeginsOutside p rest) :
    (cs ++ rest).takeWhile p = cs := by
  rw [List.takeWhile_append_of_pos all, stop.takeWhile_eq_nil, List.append_nil]

theorem dropWhile_append (all : ∀ c ∈ cs, p c = true) (stop : BeginsOutside p rest) :
    (cs ++ rest).dropWhile p = rest := by
  rw [List.dropWhile_append_of_pos all, stop.dropWhile_eq]

/-- Where a run of characters of the class ends is determined by the text. -/
theorem eq_of_append {ds after : List Char} (same : cs ++ rest = ds ++ after)
    (all : ∀ c ∈ cs, p c = true) (all' : ∀ c ∈ ds, p c = true) (stop : BeginsOutside p rest)
    (stop' : BeginsOutside p after) : cs = ds ∧ rest = after := by
  have run := congrArg (List.takeWhile p) same
  have later := congrArg (List.dropWhile p) same
  rw [takeWhile_append all stop, takeWhile_append all' stop'] at run
  rw [dropWhile_append all stop, dropWhile_append all' stop'] at later
  exact ⟨run, later⟩

end Text

namespace Decimal

open Text (BeginsOutside)

/-! ### Literals by their parts -/

/-- A plus or a minus. -/
inductive Sign where
  | plus
  | minus
  deriving DecidableEq

/-- The character of a sign. -/
def Sign.char : Sign → Char
  | plus => '+'
  | minus => '-'

/-- The characters of a sign that may be missing. -/
def signChars (s : Option Sign) : List Char := (s.map Sign.char).toList

/-- A run of digits from `0` to `9`, at least one. -/
@[ext] structure Digits where
  chars : List Char
  nonempty : chars ≠ []
  all : ∀ c ∈ chars, c.isDigit = true

/-- A power of ten in a literal, `[eE][+-]?D+`. -/
@[ext] structure Exponent where
  letter : Char
  sign : Option Sign
  digits : Digits
  isLetter : letter = 'e' ∨ letter = 'E'

/-- A number literal, `[+-]?D+(.D+)?([eE][+-]?D+)?`. -/
@[ext] structure Literal where
  sign : Option Sign
  whole : Digits
  fraction : Option Digits
  exponent : Option Exponent

/-- The point and the digits of a fraction that may be missing. -/
def fractionChars : Option Digits → List Char
  | none => []
  | some digits => '.' :: digits.chars

/-- The characters of a power of ten. -/
def Exponent.chars (e : Exponent) : List Char := e.letter :: signChars e.sign ++ e.digits.chars

/-- The characters of a power of ten that may be missing. -/
def exponentChars (e : Option Exponent) : List Char := e.elim [] Exponent.chars

/-- The exponent of a power of ten. -/
def Exponent.value (e : Exponent) : Int :=
  if e.sign = some .minus then -(natOfDigits e.digits.chars : Int) else natOfDigits e.digits.chars

namespace Literal

/-- The literal as it is written. -/
def chars (l : Literal) : List Char :=
  signChars l.sign ++ (l.whole.chars ++ (fractionChars l.fraction ++ exponentChars l.exponent))

/-- The decimal that a literal writes, without its sign. -/
def decimal (l : Literal) : Decimal :=
  let fraction := l.fraction.elim [] Digits.chars
  ⟨natOfDigits (l.whole.chars ++ fraction), l.exponent.elim 0 Exponent.value - fraction.length⟩

/-- The double of a literal: the one nearest to its decimal, with its sign. -/
def value (l : Literal) : Float :=
  if l.sign = some .minus then -l.decimal.toFloat else l.decimal.toFloat

/-- The literal begins the text, and no longer one does. -/
def Longest (l : Literal) (cs : List Char) : Prop :=
  l.chars <+: cs ∧ ∀ m : Literal, m.chars <+: cs → m.chars.length ≤ l.chars.length

end Literal

/-! ### Where the parts end -/

theorem Literal.chars_ne_nil (l : Literal) : l.chars ≠ [] := by
  simp [Literal.chars, l.whole.nonempty]

theorem Digits.exists_cons (d : Digits) :
    ∃ c rest, d.chars = c :: rest ∧ c.isDigit = true ∧ ∀ c ∈ rest, c.isDigit = true := by
  obtain ⟨chars, nonempty, all⟩ := d
  cases chars with
  | nil => exact absurd rfl nonempty
  | cons c rest =>
    exact ⟨c, rest, rfl, all c List.mem_cons_self, fun d h => all d (List.mem_cons_of_mem _ h)⟩

theorem not_sign_of_isDigit {c : Char} (digit : c.isDigit = true) :
    Expression.isSign c = false := by
  unfold Expression.isSign
  rw [Bool.or_eq_false_iff, beq_eq_false_iff_ne, beq_eq_false_iff_ne]
  constructor <;> rintro rfl <;> cases digit

theorem Digits.not_sign (d : Digits) : BeginsOutside Expression.isSign d.chars :=
  Text.beginsOutside_of_all fun c member => not_sign_of_isDigit (d.all c member)

theorem Digits.not_sign_append (d : Digits) (rest : List Char) :
    BeginsOutside Expression.isSign (d.chars ++ rest) := d.not_sign.append d.nonempty rest

theorem Exponent.not_digit {e : Exponent} : e.letter.isDigit = false := by
  rcases e.isLetter with letter | letter <;> rw [letter] <;> rfl

theorem Exponent.not_point {e : Exponent} : (e.letter == '.') = false := by
  rcases e.isLetter with letter | letter <;> rw [letter] <;> rfl

theorem exponentChars_not_digit (e : Option Exponent) :
    BeginsOutside Char.isDigit (exponentChars e) := by
  cases e with
  | none => exact Text.beginsOutside_nil
  | some e => exact Text.beginsOutside_cons.mpr e.not_digit

theorem exponentChars_not_point (e : Option Exponent) :
    BeginsOutside (· == '.') (exponentChars e) := by
  cases e with
  | none => exact Text.beginsOutside_nil
  | some e => exact Text.beginsOutside_cons.mpr e.not_point

/-- What may follow the whole digits of a literal is no digit. -/
theorem tail_not_digit (f : Option Digits) (e : Option Exponent) :
    BeginsOutside Char.isDigit (fractionChars f ++ exponentChars e) := by
  cases f with
  | none => exact exponentChars_not_digit e
  | some d => exact Text.beginsOutside_cons.mpr rfl

open Expression

@[simp] theorem isSign_char (s : Sign) : isSign s.char = true := by cases s <;> rfl

theorem forall_signChars {P : Char → Prop} (sign : ∀ c, isSign c = true → P c) (s : Option Sign) :
    ∀ c ∈ signChars s, P c := by
  intro c member
  cases s with
  | none => cases member
  | some s =>
    rw [signChars, Option.map_some, Option.toList_some, List.mem_singleton] at member
    exact sign c (member ▸ isSign_char s)

/-- What holds of digits and of the point holds of all that stands before an exponent. -/
theorem forall_magnitude {P : Char → Prop} (digit : ∀ c : Char, c.isDigit = true → P c)
    (point : P '.') (d : Digits) (f : Option Digits) : ∀ c ∈ d.chars ++ fractionChars f, P c := by
  intro c member
  rcases List.mem_append.mp member with whole | fraction
  · exact digit c (d.all c whole)
  · cases f with
    | none => cases fraction
    | some f =>
      rcases List.mem_cons.mp fraction with rfl | fraction
      · exact point
      · exact digit c (f.all c fraction)

theorem spanSign_signChars (s : Option Sign) {rest : List Char} (stop : BeginsOutside isSign rest) :
    spanSign (signChars s ++ rest) = (signChars s, rest) := by
  cases s with
  | some s => show spanSign (s.char :: rest) = _; simp [spanSign, signChars]
  | none =>
    cases rest with
    | nil => rfl
    | cons c rest =>
      show spanSign (c :: rest) = _
      rw [spanSign, Text.beginsOutside_cons.mp stop]
      rfl

theorem exists_spanSign (cs : List Char) :
    ∃ s : Option Sign, (spanSign cs).1 = signChars s := by
  cases cs with
  | nil => exact ⟨none, rfl⟩
  | cons c rest =>
    by_cases sign : isSign c = true
    · have kinds := sign
      simp only [isSign, Bool.or_eq_true, beq_iff_eq] at kinds
      rcases kinds with rfl | rfl
      · exact ⟨some .plus, rfl⟩
      · exact ⟨some .minus, rfl⟩
    · refine ⟨none, ?_⟩
      rw [spanSign, if_neg sign]
      rfl

theorem spanFraction_cons (d : Digits) (rest : List Char) :
    spanFraction ('.' :: (d.chars ++ rest)) =
      ('.' :: (d.chars ++ rest.takeWhile Char.isDigit), rest.dropWhile Char.isDigit) := by
  obtain ⟨c, later, chars, digit, digits⟩ := d.exists_cons
  simp only [spanFraction, List.takeWhile_append_of_pos d.all, List.dropWhile_append_of_pos d.all]
  simp [chars]

theorem spanFraction_of_not_point {cs : List Char} (stop : BeginsOutside (· == '.') cs) :
    spanFraction cs = ([], cs) := by
  cases cs with
  | nil => rfl
  | cons c rest => simp only [spanFraction, Text.beginsOutside_cons.mp stop, Bool.false_and]; rfl

theorem spanFraction_fractionChars (f : Option Digits) (e : Option Exponent) :
    spanFraction (fractionChars f ++ exponentChars e) = (fractionChars f, exponentChars e) := by
  cases f with
  | some d =>
    have stop := exponentChars_not_digit e
    show spanFraction ('.' :: (d.chars ++ exponentChars e)) = _
    rw [spanFraction_cons, stop.takeWhile_eq_nil, stop.dropWhile_eq, List.append_nil]
    rfl
  | none => exact spanFraction_of_not_point (exponentChars_not_point e)

theorem spanExponent_cons (e : Exponent) (rest : List Char) :
    spanExponent (e.chars ++ rest) =
      (e.chars ++ rest.takeWhile Char.isDigit, rest.dropWhile Char.isDigit) := by
  obtain ⟨c, later, chars, digit, digits⟩ := e.digits.exists_cons
  have whole : e.chars ++ rest = e.letter :: (signChars e.sign ++ (e.digits.chars ++ rest)) := by
    simp [Exponent.chars]
  have letter : (e.letter == 'e' || e.letter == 'E') = true := by simpa using e.isLetter
  rw [whole]
  simp only [spanExponent, spanSign_signChars e.sign (e.digits.not_sign_append rest), letter,
    List.takeWhile_append_of_pos e.digits.all, List.dropWhile_append_of_pos e.digits.all]
  simp [chars, Exponent.chars]

theorem Exponent.spanFraction (e : Exponent) (rest : List Char) :
    spanFraction (e.chars ++ rest) = ([], e.chars ++ rest) :=
  spanFraction_of_not_point (Text.beginsOutside_cons.mpr e.not_point)

/-! ### The longest literal -/

/-- What is cut off behind the whole digits of a literal. -/
def spanTail (cs : List Char) : List Char × List Char :=
  let (fraction, afterFraction) := spanFraction (cs.dropWhile Char.isDigit)
  let (exponent, rest) := spanExponent afterFraction
  (cs.takeWhile Char.isDigit ++ fraction ++ exponent, rest)

theorem spanLiteral_of_digits (s : Option Sign) (d : Digits) (rest : List Char) :
    spanLiteral (signChars s ++ (d.chars ++ rest)) =
      (signChars s ++ (d.chars ++ (spanTail rest).1), (spanTail rest).2) := by
  obtain ⟨c, later, chars, digit, digits⟩ := d.exists_cons
  simp only [spanLiteral, spanTail, spanSign_signChars s (d.not_sign_append rest),
    List.takeWhile_append_of_pos d.all, List.dropWhile_append_of_pos d.all]
  simp [chars]

theorem spanTail_point (d : Digits) (rest : List Char) :
    spanTail ('.' :: (d.chars ++ rest)) =
      ('.' :: (d.chars ++ rest.takeWhile Char.isDigit) ++
          (spanExponent (rest.dropWhile Char.isDigit)).1,
        (spanExponent (rest.dropWhile Char.isDigit)).2) := by
  have stop : BeginsOutside Char.isDigit ('.' :: (d.chars ++ rest)) :=
    Text.beginsOutside_cons.mpr rfl
  simp only [spanTail, stop.takeWhile_eq_nil, stop.dropWhile_eq, spanFraction_cons]
  simp

theorem spanTail_exponent (e : Exponent) (rest : List Char) :
    spanTail (e.chars ++ rest) = spanExponent (e.chars ++ rest) := by
  have stop : BeginsOutside Char.isDigit (e.chars ++ rest) :=
    Text.beginsOutside_cons.mpr e.not_digit
  simp only [spanTail, stop.takeWhile_eq_nil, stop.dropWhile_eq, e.spanFraction]
  simp

/-- No fraction and exponent behind the whole digits are longer than what is cut off there. -/
theorem length_le_spanTail (f : Option Digits) (e : Option Exponent) (rest : List Char) :
    (fractionChars f ++ exponentChars e).length ≤
      (spanTail (fractionChars f ++ (exponentChars e ++ rest))).1.length := by
  cases f with
  | none =>
    cases e with
    | none => exact Nat.zero_le _
    | some e =>
      show e.chars.length ≤ (spanTail (e.chars ++ rest)).1.length
      rw [spanTail_exponent, spanExponent_cons]
      simp
  | some d =>
    show ('.' :: (d.chars ++ exponentChars e)).length ≤
      (spanTail ('.' :: (d.chars ++ (exponentChars e ++ rest)))).1.length
    rw [spanTail_point]
    cases e with
    | none => simp [exponentChars]
    | some e =>
      have stop : BeginsOutside Char.isDigit (e.chars ++ rest) :=
        Text.beginsOutside_cons.mpr e.not_digit
      show _ ≤ (_ ++ (spanExponent ((e.chars ++ rest).dropWhile Char.isDigit)).1).length
      rw [stop.dropWhile_eq, spanExponent_cons]
      simp [exponentChars]
      omega

/-- No literal that begins a text is longer than what is cut off it. -/
theorem Literal.length_le_spanLiteral {m : Literal} {cs : List Char} (begins : m.chars <+: cs) :
    m.chars.length ≤ (spanLiteral cs).1.length := by
  obtain ⟨rest, rfl⟩ := begins
  have longer := length_le_spanTail m.fraction m.exponent rest
  simp only [Literal.chars, List.append_assoc, spanLiteral_of_digits, List.length_append] at longer ⊢
  omega

theorem exists_digits {cs : List Char} (nonempty : cs.takeWhile Char.isDigit ≠ []) :
    ∃ d : Digits, d.chars = cs.takeWhile Char.isDigit :=
  ⟨⟨_, nonempty, fun _ member => List.mem_takeWhile_imp member⟩, rfl⟩

theorem exists_spanFraction (cs : List Char) :
    ∃ f : Option Digits, (spanFraction cs).1 = fractionChars f := by
  cases cs with
  | nil => exact ⟨none, rfl⟩
  | cons c rest =>
    simp only [spanFraction]
    split
    · rename_i point
      rw [Bool.and_eq_true, beq_iff_eq, Bool.not_eq_true', List.isEmpty_eq_false_iff] at point
      obtain ⟨d, digits⟩ := exists_digits point.2
      exact ⟨some d, by rw [point.1, fractionChars, digits]⟩
    · exact ⟨none, rfl⟩

theorem exists_spanExponent (cs : List Char) :
    ∃ e : Option Exponent, (spanExponent cs).1 = exponentChars e := by
  cases cs with
  | nil => exact ⟨none, rfl⟩
  | cons c rest =>
    obtain ⟨s, sign⟩ := exists_spanSign rest
    simp only [spanExponent]
    split
    · rename_i letter
      rw [Bool.and_eq_true, Bool.or_eq_true, beq_iff_eq, beq_iff_eq, Bool.not_eq_true',
        List.isEmpty_eq_false_iff] at letter
      obtain ⟨d, digits⟩ := exists_digits letter.2
      refine ⟨some ⟨c, s, d, letter.1⟩, ?_⟩
      simp [exponentChars, Exponent.chars, digits, sign]
    · exact ⟨none, rfl⟩

/-- What is cut off a text is its longest literal, or nothing if no literal begins there. -/
theorem spanLiteral_cases (cs : List Char) :
    (spanLiteral cs = ([], cs) ∧ ∀ m : Literal, ¬ m.chars <+: cs) ∨
      ∃ l : Literal, l.Longest cs ∧
        ∃ rest, cs = l.chars ++ rest ∧ spanLiteral cs = (l.chars, rest) := by
  obtain ⟨s, sign⟩ := exists_spanSign cs
  by_cases digits : (spanSign cs).2.takeWhile Char.isDigit = []
  · left
    have none : spanLiteral cs = ([], cs) := by simp [spanLiteral, digits]
    refine ⟨none, fun m begins => ?_⟩
    have short := Literal.length_le_spanLiteral begins
    obtain ⟨_, _, chars, _⟩ := m.whole.exists_cons
    simp [none, Literal.chars, chars] at short
  · right
    obtain ⟨d, chars⟩ := exists_digits digits
    obtain ⟨f, fraction⟩ := exists_spanFraction ((spanSign cs).2.dropWhile Char.isDigit)
    obtain ⟨e, exponent⟩ := exists_spanExponent
      (spanFraction ((spanSign cs).2.dropWhile Char.isDigit)).2
    have cut : (spanLiteral cs).1 = (Literal.mk s d f e).chars := by
      simp [spanLiteral, digits, fraction, exponent, chars, Literal.chars, sign]
    have append := spanLiteral_append cs
    rw [cut] at append
    refine ⟨⟨s, d, f, e⟩, ⟨⟨_, append⟩, fun m begins => ?_⟩, _, append.symm, ?_⟩
    · exact cut ▸ Literal.length_le_spanLiteral begins
    · rw [← cut]

/-! ### One literal for a text -/

theorem Sign.char_inj {s t : Sign} (same : s.char = t.char) : s = t := by
  cases s <;> cases t <;> simp [Sign.char] at same ⊢

theorem signChars_inj {s t : Option Sign} (same : signChars s = signChars t) : s = t := by
  cases s with
  | none => cases t with
    | none => rfl
    | some b => cases same
  | some a => cases t with
    | none => cases same
    | some b => exact congrArg some (Sign.char_inj (List.cons.inj same).1)

theorem eq_of_signChars_append {s t : Option Sign} {rest after : List Char}
    (same : signChars s ++ rest = signChars t ++ after) (stop : BeginsOutside isSign rest)
    (stop' : BeginsOutside isSign after) : s = t ∧ rest = after := by
  have cut := spanSign_signChars s stop
  rw [same, spanSign_signChars t stop'] at cut
  obtain ⟨sign, later⟩ := Prod.mk.inj cut
  exact ⟨signChars_inj sign.symm, later.symm⟩

theorem fractionChars_inj {f g : Option Digits} (same : fractionChars f = fractionChars g) :
    f = g := by
  cases f with
  | none => cases g with
    | none => rfl
    | some d => cases same
  | some c => cases g with
    | none => cases same
    | some d => exact congrArg some (Digits.ext (List.cons.inj same).2)

theorem exponentChars_inj {d e : Option Exponent} (same : exponentChars d = exponentChars e) :
    d = e := by
  cases d with
  | none => cases e with
    | none => rfl
    | some d => cases same
  | some d => cases e with
    | none => cases same
    | some e =>
      obtain ⟨letter, later⟩ := List.cons.inj same
      obtain ⟨sign, digits⟩ := eq_of_signChars_append later d.digits.not_sign e.digits.not_sign
      exact congrArg some (Exponent.ext letter sign (Digits.ext digits))

theorem Literal.chars_inj {l m : Literal} (same : l.chars = m.chars) : l = m := by
  obtain ⟨sign, unsigned⟩ := eq_of_signChars_append same (l.whole.not_sign_append _)
    (m.whole.not_sign_append _)
  obtain ⟨whole, tail⟩ := Text.eq_of_append unsigned l.whole.all m.whole.all
    (tail_not_digit l.fraction l.exponent) (tail_not_digit m.fraction m.exponent)
  have parts := congrArg spanFraction tail
  rw [spanFraction_fractionChars, spanFraction_fractionChars] at parts
  obtain ⟨fraction, exponent⟩ := Prod.mk.inj parts
  exact Literal.ext sign (Digits.ext whole) (fractionChars_inj fraction)
    (exponentChars_inj exponent)

theorem Literal.Longest.unique {l m : Literal} {cs : List Char} (hl : l.Longest cs)
    (hm : m.Longest cs) : l = m := by
  have length := le_antisymm (hm.2 l hl.1) (hl.2 m hm.1)
  exact Literal.chars_inj ((List.prefix_of_prefix_length_le hl.1 hm.1 length.le).eq_of_length length)

/-- The longest literal of a text is what is cut off it. -/
theorem Literal.longest_iff {l : Literal} {cs : List Char} :
    l.Longest cs ↔ (spanLiteral cs).1 = l.chars := by
  rcases spanLiteral_cases cs with ⟨nothing, none⟩ | ⟨m, longest, rest, _, cut⟩
  · rw [nothing]
    exact ⟨fun longest => absurd longest.1 (none l), fun empty => absurd empty.symm l.chars_ne_nil⟩
  · rw [cut]
    constructor
    · intro own
      rw [own.unique longest]
    · intro same
      rwa [← Literal.chars_inj same]

/-- Behind whole digits and a fraction, all that the longest literal may go on with is an exponent. -/
theorem spanLiteral_fraction (s : Option Sign) (d : Digits) (f : Option Digits) {rest : List Char}
    (digit : BeginsOutside Char.isDigit rest) (point : BeginsOutside (· == '.') rest) :
    spanLiteral (signChars s ++ (d.chars ++ (fractionChars f ++ rest))) =
      (signChars s ++ (d.chars ++ (fractionChars f ++ (spanExponent rest).1)),
        (spanExponent rest).2) := by
  have tail : spanTail (fractionChars f ++ rest) =
      (fractionChars f ++ (spanExponent rest).1, (spanExponent rest).2) := by
    cases f with
    | none =>
      show spanTail rest = _
      simp only [spanTail, digit.takeWhile_eq_nil, digit.dropWhile_eq,
        spanFraction_of_not_point point]
      rfl
    | some f =>
      show spanTail ('.' :: (f.chars ++ rest)) = _
      rw [spanTail_point, digit.takeWhile_eq_nil, digit.dropWhile_eq, List.append_nil]
      rfl
  rw [spanLiteral_of_digits, tail]

theorem spanFraction_not_digit {cs : List Char} (stop : BeginsOutside Char.isDigit cs) :
    BeginsOutside Char.isDigit (spanFraction cs).2 := by
  cases cs with
  | nil => exact stop
  | cons c rest =>
    simp only [spanFraction]
    split
    · exact Text.beginsOutside_dropWhile Char.isDigit rest
    · exact stop

theorem spanExponent_not_digit {cs : List Char} (stop : BeginsOutside Char.isDigit cs) :
    BeginsOutside Char.isDigit (spanExponent cs).2 := by
  cases cs with
  | nil => exact stop
  | cons c rest =>
    simp only [spanExponent]
    split
    · exact Text.beginsOutside_dropWhile Char.isDigit (spanSign rest).2
    · exact stop

/-- No digit follows the longest literal. -/
theorem Literal.Longest.not_digit {l : Literal} {rest : List Char}
    (longest : l.Longest (l.chars ++ rest)) : BeginsOutside Char.isDigit rest := by
  have cut := longest_iff.mp longest
  have append := spanLiteral_append (l.chars ++ rest)
  rw [cut, List.append_cancel_left_eq] at append
  rw [← append, Literal.chars, List.append_assoc, List.append_assoc, spanLiteral_of_digits]
  exact spanExponent_not_digit (spanFraction_not_digit (Text.beginsOutside_dropWhile _ _))

/-! ### The value of a literal -/

theorem splitSign_of_digits (s : Option Sign) (d : Digits) (rest : List Char) :
    splitSign (signChars s ++ (d.chars ++ rest)) =
      (decide (s = some .minus), d.chars ++ rest) := by
  obtain ⟨c, later, chars, digit, _⟩ := d.exists_cons
  have plus : c ≠ '+' := by rintro rfl; cases digit
  have minus : c ≠ '-' := by rintro rfl; cases digit
  cases s with
  | none => simp [signChars, chars, splitSign, plus, minus]
  | some s => cases s <;> rfl

theorem readExponent?_exponentChars (e : Option Exponent) :
    readExponent? (exponentChars e) = some (e.elim 0 Exponent.value) := by
  cases e with
  | none => rfl
  | some e =>
    have sign := splitSign_of_digits e.sign e.digits []
    rw [List.append_nil] at sign
    have digits : e.digits.chars.isEmpty = false := List.isEmpty_eq_false_iff.mpr e.digits.nonempty
    have all : e.digits.chars.all Char.isDigit = true := List.all_eq_true.mpr e.digits.all
    show readExponent? (e.letter :: (signChars e.sign ++ e.digits.chars)) = some e.value
    simp [readExponent?, e.isLetter, sign, digits, all, Exponent.value]

theorem readUnsigned?_parts (d : Digits) (f : Option Digits) (e : Option Exponent) :
    readUnsigned? (d.chars ++ (fractionChars f ++ exponentChars e)) =
      some (Literal.mk none d f e).decimal := by
  have stop := tail_not_digit f e
  obtain ⟨c, later, chars, _, _⟩ := d.exists_cons
  have whole : d.chars.isEmpty = false := List.isEmpty_eq_false_iff.mpr d.nonempty
  simp only [readUnsigned?, Text.takeWhile_append d.all stop, Text.dropWhile_append d.all stop, whole]
  cases f with
  | some f =>
    have digits := exponentChars_not_digit e
    simp [fractionChars, Text.takeWhile_append f.all digits, Text.dropWhile_append f.all digits,
      readExponent?_exponentChars, Literal.decimal]
  | none =>
    cases e with
    | none => rfl
    | some e =>
      have point : e.letter ≠ '.' := beq_eq_false_iff_ne.mp e.not_point
      have exponent := readExponent?_exponentChars (some e)
      simp only [exponentChars, Option.elim_some, Exponent.chars, List.cons_append] at exponent
      simp [fractionChars, exponentChars, Exponent.chars, Literal.decimal, point, exponent]

theorem toLower_of_isDigit {c : Char} (digit : c.isDigit = true) : c.toLower = c := by
  have below : ¬ (c.val ≥ 'A'.val ∧ c.val ≤ 'Z'.val) := by
    rintro ⟨above, _⟩
    simp only [Char.isDigit, Bool.and_eq_true, decide_eq_true_eq, UInt32.le_iff_toNat_le,
      ge_iff_le] at digit above
    exact absurd (above.trans digit.2) (by decide)
  exact dif_neg below

/-- A literal reads as its value. -/
theorem read?_chars (l : Literal) : read? l.chars = some l.value := by
  obtain ⟨s, d, f, e⟩ := l
  obtain ⟨c, later, chars, digit, _⟩ := d.exists_cons
  have lower : c.toLower.isDigit = true := (toLower_of_isDigit digit).symm ▸ digit
  have name (word : String) (first : BeginsOutside Char.isDigit word.toList) :
      String.ofList ((d.chars ++ (fractionChars f ++ exponentChars e)).map Char.toLower) ≠ word := by
    rintro rfl
    rw [String.toList_ofList, chars, List.cons_append, List.map_cons,
      Text.beginsOutside_cons, lower] at first
    cases first
  have inf := name "inf" (by simp)
  have infinity := name "infinity" (by simp)
  have nan := name "nan" (by simp)
  simp only [read?, Literal.chars, splitSign_of_digits, readUnsigned?_parts]
  generalize String.ofList _ = word at inf infinity nan ⊢
  simp [inf, infinity, nan, Literal.value, Literal.decimal]

end Decimal

end Simplex
