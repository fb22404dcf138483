import Simplex.Proofs.WrittenTerms
import Mathlib.Algebra.Order.BigOperators.Group.List

/-!
Expressions as they are written. Without blanks, a written expression is a row of chunks, one for
each term, unless a name blends with the magnitude before it, and then part of the name is read as a
power of ten. Letters tell when that happens: each power of ten takes one from a name.
-/
namespace Simplex

open Decimal (Sign Literal signChars)
open Text (BeginsOutside isBlank)

namespace Expression

/-- A name goes on from a number as a power of ten does: with `e` or `E` and a digit, or with that
    letter alone where a digit follows behind the next sign. -/
def beginsPower (name : List Char) (digitFollows : Bool) : Bool :=
  match name with
  | [] => false
  | [c] => isExponentLetter c && digitFollows
  | c :: d :: _ => isExponentLetter c && d.isDigit

/-- The magnitude of a term is written, and its name is read as part of the number. -/
def blends (t : Term Float) (later : Expression Float) : Bool :=
  t.showsMagnitude && beginsPower t.name.toList (later.head?.any Term.showsMagnitude)

/-- No name blends with the magnitude before it. -/
def legible : Expression Float → Bool
  | [] => true
  | t :: later => !blends t later && legible later

/-- The characters of terms that follow others, without blanks. -/
def joined (e : Expression Float) : List Char := e.flatMap fun t => t.sign.char :: t.unsignedText

variable {t : Term Float} {later : Expression Float}

theorem spanExponent_cons_eq_nil_iff (c : Char) (rest : List Char) :
    (spanExponent (c :: rest)).1 = [] ↔
      (isExponentLetter c = true → BeginsOutside Char.isDigit (spanSign rest).2) := by
  rw [Text.beginsOutside_iff]
  cases letter : isExponentLetter c with
  | false =>
    have other : (c == 'e' || c == 'E') = false := letter
    simp [spanExponent, other]
  | true =>
    have own : (c == 'e' || c == 'E') = true := letter
    by_cases digits : (spanSign rest).2.takeWhile Char.isDigit = []
    · simp [spanExponent, own, digits]
    · simp [spanExponent, own, digits]

theorem spanSign_joined (later : Expression Float) (writable : ∀ u ∈ later, u.Writable) :
    BeginsOutside Char.isDigit (spanSign (joined later)).2 ↔
      later.head?.any Term.showsMagnitude = false := by
  cases later with
  | nil => exact iff_of_true Text.beginsOutside_nil rfl
  | cons u others =>
    have first := (writable u List.mem_cons_self).beginsOutside_unsignedText (joined others)
    have span : spanSign (joined (u :: others)) =
        ([u.sign.char], u.unsignedText ++ joined others) := by
      simp [joined, spanSign]
    rw [span]
    exact first

theorem endsTerm_joined (later : Expression Float) : endsTerm (joined later) = true := by
  cases later with
  | nil => rfl
  | cons u others => exact Decimal.isSign_char u.sign

/-- What blends is what a power of ten begins with. -/
theorem spanExponent_name_eq_nil_iff (writable : t.Writable)
    (others : ∀ u ∈ later, u.Writable) :
    (spanExponent (t.name.toList ++ joined later)).1 = [] ↔
      beginsPower t.name.toList (later.head?.any Term.showsMagnitude) = false := by
  have letters := writable.letters
  cases chars : t.name.toList with
  | nil =>
    cases later with
    | nil => exact iff_of_true rfl rfl
    | cons u others =>
      refine iff_of_true ?_ rfl
      rw [List.nil_append]
      show (spanExponent (u.sign.char :: _)).1 = []
      rw [spanExponent_cons_eq_nil_iff, not_exponentLetter_of_isSign (Decimal.isSign_char _)]
      exact fun letter => absurd letter Bool.false_ne_true
  | cons c name =>
    rw [chars] at letters
    rw [List.cons_append, spanExponent_cons_eq_nil_iff]
    cases name with
    | nil =>
      rw [List.nil_append, spanSign_joined later others]
      cases letter : isExponentLetter c <;> simp [beginsPower, letter]
    | cons d name =>
      have sign : isSign d = false := not_isSign_of_isNameChar (letters d (by simp))
      have span : spanSign (d :: (name ++ joined later)) = ([], d :: (name ++ joined later)) := by
        simp [spanSign, sign]
      rw [List.cons_append, span, Text.beginsOutside_cons]
      cases letter : isExponentLetter c <;> simp [beginsPower, letter]

theorem powerChars_eq_nil_iff (writable : t.Writable) (others : ∀ u ∈ later, u.Writable) :
    t.powerChars (joined later) = [] ↔ blends t later = false := by
  rw [Term.powerChars, blends]
  cases t.showsMagnitude with
  | true => exact spanExponent_name_eq_nil_iff writable others
  | false => exact iff_of_true rfl rfl

/-- What is read as a power of ten begins with its letter. -/
theorem powerChars_eq_nil_of_not_exponentLetter {rest : List Char}
    (none : ∀ a ∈ t.powerChars rest, isExponentLetter a = false) : t.powerChars rest = [] := by
  unfold Term.powerChars at none ⊢
  split
  · rename_i shown
    rw [if_pos shown] at none
    obtain ⟨e, chars⟩ := Decimal.exists_spanExponent (t.name.toList ++ rest)
    rw [chars] at none ⊢
    cases e with
    | none => rfl
    | some e =>
      have other := none e.letter List.mem_cons_self
      rcases e.isLetter with letter | letter <;> rw [letter] at other <;> cases other
  · rfl

theorem joined_cons (u : Term Float) (others : Expression Float) :
    joined (u :: others) = signChars (some u.sign) ++ (u.unsignedText ++ joined others) := rfl

/-- A term whose name does not blend is written as one more chunk. -/
theorem exists_follows_cons (own : t.Writable) (others : ∀ u ∈ later, u.Writable) {s : Option Sign}
    (signed : s = some .minus ↔ t.isNegative = true) (apart : blends t later = false) :
    ∃ c : Chunk, c.term = t ∧ ∀ chunks, Follows (joined later) chunks →
      Follows (signChars s ++ (t.unsignedText ++ joined later)) (c :: chunks) := by
  obtain ⟨c, written⟩ := Term.exists_chunk own signed
  have longest := written.longest _ (endsTerm_joined later)
    ((powerChars_eq_nil_iff own others).mpr apart)
  have text : signChars s ++ (t.unsignedText ++ joined later) = c.chars ++ joined later := by
    rw [written.chars, List.append_assoc]
  exact ⟨c, written.term, fun chunks follows =>
    .cons text (text ▸ longest) (endsTerm_joined later) follows⟩

theorem exists_follows_joined {e : Expression Float} (writable : ∀ u ∈ e, u.Writable)
    (clear : legible e = true) :
    ∃ chunks, Follows (joined e) chunks ∧ chunks.map Chunk.term = e := by
  induction e with
  | nil => exact ⟨[], .nil, rfl⟩
  | cons u others ih =>
    rw [List.forall_mem_cons] at writable
    rw [legible, Bool.and_eq_true, Bool.not_eq_true'] at clear
    obtain ⟨chunks, follows, terms⟩ := ih writable.2 clear.2
    obtain ⟨c, term, more⟩ := exists_follows_cons writable.1 writable.2
      u.sign_eq_minus_iff clear.1
    refine ⟨c :: chunks, ?_, by rw [List.map_cons, term, terms]⟩
    rw [joined_cons]
    exact more chunks follows

/-- Where a text of terms is read without any power of ten, its first name does not blend, and the
    chunks after the first make up the rest of the text. -/
theorem apart_of_follows (own : t.Writable) (others : ∀ u ∈ later, u.Writable) {s : Option Sign}
    (signed : s = some .minus ↔ t.isNegative = true) {chunks : List Chunk}
    (follows : Follows (signChars s ++ (t.unsignedText ++ joined later)) chunks)
    (noPower : ∀ c ∈ chunks, ∀ a ∈ c.lead.chars, isExponentLetter a = false) :
    blends t later = false ∧ Follows (joined later) chunks.tail := by
  obtain ⟨c, written⟩ := Term.exists_chunk own signed
  have ends := endsTerm_joined later
  rw [← List.append_assoc, ← written.chars] at follows
  generalize whole : c.chars ++ joined later = cs at follows
  cases follows with
  | nil => exact absurd (List.append_eq_nil_iff.mp whole).1 c.chars_ne_nil
  | @cons _ rest d chunks text longest ends' follows =>
    have lead := written.lead_span _ ends
    rw [whole, text, Chunk.span (text ▸ longest)] at lead
    have none : t.powerChars (joined later) = [] := by
      refine powerChars_eq_nil_of_not_exponentLetter fun a member => ?_
      refine noPower d List.mem_cons_self a ?_
      rw [lead]
      exact List.mem_append_right _ member
    obtain ⟨_, rfl⟩ := Chunk.eq_of_append (whole.trans text) (written.longest _ ends none) ends
      (text ▸ longest) ends'
    exact ⟨(powerChars_eq_nil_iff own others).mp none, follows⟩

theorem legible_of_follows_joined {e : Expression Float} (writable : ∀ u ∈ e, u.Writable)
    {chunks : List Chunk} (follows : Follows (joined e) chunks)
    (noPower : ∀ c ∈ chunks, ∀ a ∈ c.lead.chars, isExponentLetter a = false) :
    legible e = true := by
  induction e generalizing chunks with
  | nil => rfl
  | cons u others ih =>
    rw [List.forall_mem_cons] at writable
    obtain ⟨apart, later⟩ :=
      apart_of_follows writable.1 writable.2 u.sign_eq_minus_iff follows noPower
    rw [legible, apart, ih writable.2 later fun c member => noPower c (List.mem_of_mem_tail member)]
    rfl

/-! ### Whole texts -/

/-- The characters of a written expression without its blanks. -/
def compact : Expression Float → List Char
  | [] => ['0']
  | t :: later => signChars t.leadSign ++ (t.unsignedText ++ joined later)

variable {e : Expression Float}

/-- A legible expression is read back from its text. -/
theorem read_compact (nonempty : e ≠ []) (writable : ∀ u ∈ e, u.Writable)
    (clear : legible e = true) : Expression.read (String.ofList (compact e)) = .ok e := by
  cases e with
  | nil => exact absurd rfl nonempty
  | cons t later =>
    rw [List.forall_mem_cons] at writable
    rw [legible, Bool.and_eq_true, Bool.not_eq_true'] at clear
    obtain ⟨chunks, follows, terms⟩ := exists_follows_joined writable.2 clear.2
    obtain ⟨c, term, more⟩ :=
      exists_follows_cons writable.1 writable.2 t.leadSign_eq_minus_iff clear.1
    rw [read_iff, String.toList_ofList]
    exact ⟨c :: chunks, splits_iff.mpr ⟨more chunks follows, List.cons_ne_nil _ _⟩,
      by rw [List.map_cons, term, terms]⟩

/-! ### Letters -/

/-- The number of letters in names that a power of ten begins with. -/
def letterCount (names : List String) : Nat :=
  (names.map fun n => n.toList.countP isExponentLetter).sum

theorem letterCount_mono {names others : List String} (sublist : names.Sublist others) :
    letterCount names ≤ letterCount others :=
  (sublist.map _).sum_le_sum fun _ _ => Nat.zero_le _

theorem countP_signChars (s : Option Sign) : (signChars s).countP isExponentLetter = 0 :=
  List.countP_eq_zero.mpr fun a member => by
    rw [signChars_not_exponentLetter s a member]
    exact Bool.false_ne_true

theorem countP_joined (writable : ∀ u ∈ e, u.Writable) :
    (joined e).countP isExponentLetter = letterCount (e.map Term.name) := by
  induction e with
  | nil => rfl
  | cons u others ih =>
    rw [List.forall_mem_cons] at writable
    rw [joined_cons, List.countP_append, List.countP_append, countP_signChars, Nat.zero_add,
      writable.1.countP_unsignedText, ih writable.2]
    rfl

/-- The letters of a written expression are those of its names. -/
theorem countP_compact (writable : ∀ u ∈ e, u.Writable) :
    (compact e).countP isExponentLetter = letterCount (e.map Term.name) := by
  cases e with
  | nil => rfl
  | cons t later =>
    rw [List.forall_mem_cons] at writable
    rw [compact, List.countP_append, List.countP_append, countP_signChars, Nat.zero_add,
      writable.1.countP_unsignedText, countP_joined writable.2]
    rfl

/-- Of the letters of a text, the names of the terms have those that begin no power of ten. -/
theorem countP_chunks (chunks : List Chunk) :
    (chunks.flatMap Chunk.chars).countP isExponentLetter =
      (chunks.flatMap fun c => c.lead.chars).countP isExponentLetter +
        letterCount (chunks.map fun c => c.term.name) := by
  induction chunks with
  | nil => rfl
  | cons c later ih =>
    have own : c.term.name.toList = c.name := String.toList_ofList
    have names : letterCount ((c :: later).map fun c => c.term.name) =
        c.name.countP isExponentLetter + letterCount (later.map fun c => c.term.name) := by
      rw [← own]
      rfl
    rw [List.flatMap_cons, List.flatMap_cons, List.countP_append, List.countP_append, ih, names,
      Chunk.chars, List.countP_append]
    omega

/-- An expression is legible if its text is read as terms with all its names, or with more. -/
theorem legible_of_read (writable : ∀ u ∈ e, u.Writable) {terms : Expression Float}
    (read : Expression.read (String.ofList (compact e)) = .ok terms)
    (names : (e.map Term.name).Sublist (terms.map Term.name)) : legible e = true := by
  obtain ⟨chunks, splits, rfl⟩ := read_iff.mp read
  rw [String.toList_ofList] at splits
  have follows := (splits_iff.mp splits).1
  have noPower : ∀ c ∈ chunks, ∀ a ∈ c.lead.chars, isExponentLetter a = false := by
    have total := countP_chunks chunks
    have fewer := letterCount_mono names
    rw [splits.joined, countP_compact writable] at total
    rw [List.map_map] at fewer
    have none : (chunks.flatMap fun c => c.lead.chars).countP isExponentLetter = 0 := by
      change _ ≤ letterCount (chunks.map fun c => c.term.name) at fewer
      omega
    intro c member a own
    simpa using List.countP_eq_zero.mp none a (List.mem_flatMap.mpr ⟨c, member, own⟩)
  cases e with
  | nil => rfl
  | cons t later =>
    rw [List.forall_mem_cons] at writable
    obtain ⟨apart, rest⟩ :=
      apart_of_follows writable.1 writable.2 t.leadSign_eq_minus_iff follows noPower
    rw [legible, apart, legible_of_follows_joined writable.2 rest fun c member =>
      noPower c (List.mem_of_mem_tail member)]
    rfl

/-! ### Blanks -/

theorem joined_written (writable : ∀ u ∈ e, u.Writable) : ∀ c ∈ joined e, isWritten c = true := by
  intro c member
  obtain ⟨u, own, member⟩ := List.mem_flatMap.mp member
  rcases List.mem_cons.mp member with rfl | member
  · exact isWritten_of_isSign (Decimal.isSign_char u.sign)
  · exact (writable u own).unsignedText_written c member

theorem compact_written (writable : ∀ u ∈ e, u.Writable) : ∀ c ∈ compact e, isWritten c = true := by
  cases e with
  | nil => exact List.forall_mem_singleton.mpr (isWritten_of_isDigit rfl)
  | cons t later =>
    rw [List.forall_mem_cons] at writable
    intro c member
    rw [compact, List.mem_append, List.mem_append] at member
    rcases member with sign | own | others
    · exact signChars_written _ c sign
    · exact writable.1.unsignedText_written c own
    · exact joined_written writable.2 c others

theorem filter_written {cs : List Char} (written : ∀ c ∈ cs, isWritten c = true) :
    cs.filter (fun c => !isBlank c) = cs := by
  rw [List.filter_eq_self]
  intro c member
  rw [not_isBlank_of_isWritten (written c member)]
  rfl

theorem filter_laterText (writable : ∀ u ∈ e, u.Writable) :
    (laterText e).filter (fun c => !isBlank c) = joined e := by
  induction e with
  | nil => rfl
  | cons u others ih =>
    rw [List.forall_mem_cons] at writable
    have blank : isBlank ' ' = true := by decide
    have sign : (if u.isNegative then '-' else '+') = u.sign.char := by
      unfold Term.sign
      cases u.isNegative <;> rfl
    have spaced : [' ', u.sign.char, ' '].filter (fun c => !isBlank c) = [u.sign.char] := by
      simp [blank, not_isBlank_of_isWritten (isWritten_of_isSign (Decimal.isSign_char u.sign))]
    rw [laterText, List.flatMap_cons, List.filter_append, List.filter_append, sign, spaced,
      filter_written writable.1.unsignedText_written, ← laterText, ih writable.2]
    rfl

/-- Without its blanks, a written expression is compact. -/
theorem filter_chars (writable : ∀ u ∈ e, u.Writable) :
    e.chars.filter (fun c => !isBlank c) = compact e := by
  cases e with
  | nil => exact filter_written (List.forall_mem_singleton.mpr (isWritten_of_isDigit rfl))
  | cons t later =>
    rw [List.forall_mem_cons] at writable
    have sign : (if t.isNegative then ['-'] else []) = signChars t.leadSign := by
      unfold Term.leadSign
      cases t.isNegative <;> rfl
    rw [Expression.chars, sign, List.filter_append, List.filter_append,
      filter_written (signChars_written t.leadSign),
      filter_written writable.1.unsignedText_written, filter_laterText writable.2, compact,
      List.append_assoc]

end Expression

end Simplex
