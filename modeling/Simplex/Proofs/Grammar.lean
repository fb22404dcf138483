import Simplex.Proofs.Literals

/-!
The grammar of expressions. A text is an expression just if it splits into chunks: each is a literal
with or without a name, or a sign with a name, and the first may also be a name alone. Literals are
as long as possible, and then a text splits in one way only.
-/
namespace Simplex.Expression

open Decimal (Sign Literal)
open Text (BeginsOutside isNameChar)

/-! ### Chunks -/

/-- A name in a text: letters, numbers and underscores, at least one. -/
@[ext] structure Identifier where
  chars : List Char
  nonempty : chars ≠ []
  all : ∀ c ∈ chars, isNameChar c = true

/-- The name does not begin with a digit from `0` to `9`. -/
def Identifier.Plain (n : Identifier) : Prop := BeginsOutside Char.isDigit n.chars

/-- A piece of a text that states one term. -/
inductive Chunk where
  /-- A literal, which a name may follow. -/
  | number (literal : Literal) (name : Option Identifier)
  /-- A sign before a name. -/
  | signed (sign : Sign) (name : Identifier) (plain : name.Plain)
  /-- A name alone. -/
  | bare (name : Identifier) (plain : name.Plain)

namespace Chunk

/-- What a chunk begins with. -/
def lead : Chunk → Lead
  | number literal _ => .literal literal.chars
  | signed sign _ _ => .sign sign.char
  | bare _ _ => .absent

/-- The characters of the name of a chunk. -/
def name : Chunk → List Char
  | number _ name => name.elim [] Identifier.chars
  | signed _ name _ | bare name _ => name.chars

/-- The characters of a chunk. -/
def chars (c : Chunk) : List Char := c.lead.chars ++ c.name

/-- The double of the literal, else one with the sign. -/
def coefficient : Chunk → Float
  | number literal _ => literal.value
  | signed .minus _ _ => -1
  | signed .plus _ _ | bare _ _ => 1

/-- The term that a chunk states. -/
def term (c : Chunk) : Term Float := { coefficient := c.coefficient, name := String.ofList c.name }

/-- A literal of the chunk is the longest at the beginning of the text. -/
def Longest (cs : List Char) : Chunk → Prop
  | number literal _ => literal.Longest cs
  | signed _ _ _ | bare _ _ => True

/-- The chunk begins with a plus or a minus. -/
def BeginsWithSign (c : Chunk) : Prop := ∃ s ∈ c.chars.head?, isSign s = true

end Chunk

/-- The chunks make up the text, at least one of them; those after the first begin with a sign, and
    every literal is the longest where it stands. -/
structure Splits (cs : List Char) (chunks : List Chunk) : Prop where
  joined : chunks.flatMap Chunk.chars = cs
  nonempty : chunks ≠ []
  signed : ∀ chunk ∈ chunks.tail, chunk.BeginsWithSign
  longest : ∀ before chunk after, chunks = before ++ chunk :: after →
    chunk.Longest ((chunk :: after).flatMap Chunk.chars)

/-- The chunks make up the text, each ending where a term may end. -/
inductive Follows : List Char → List Chunk → Prop
  | nil : Follows [] []
  | cons {cs rest : List Char} {chunk : Chunk} {later : List Chunk} (text : cs = chunk.chars ++ rest)
      (longest : chunk.Longest cs) (ends : endsTerm rest = true) (follows : Follows rest later) :
      Follows cs (chunk :: later)

/-! ### How chunks begin -/

theorem not_isNameChar_of_isSign {c : Char} (sign : isSign c = true) : isNameChar c = false := by
  simp only [isSign, Bool.or_eq_true, beq_iff_eq] at sign
  rcases sign with rfl | rfl <;> decide

theorem not_isSign_of_isNameChar {c : Char} (letter : isNameChar c = true) : isSign c = false := by
  by_contra sign
  rw [not_isNameChar_of_isSign (by simpa using sign)] at letter
  cases letter

theorem Identifier.not_sign (n : Identifier) (rest : List Char) :
    BeginsOutside isSign (n.chars ++ rest) :=
  (Text.beginsOutside_of_all fun c member => not_isSign_of_isNameChar (n.all c member)).append
    n.nonempty rest

theorem Identifier.Plain.append {n : Identifier} (plain : n.Plain) (rest : List Char) :
    BeginsOutside Char.isDigit (n.chars ++ rest) := BeginsOutside.append plain n.nonempty rest

theorem not_isNameChar_of_endsTerm {rest : List Char} (ends : endsTerm rest = true) :
    BeginsOutside isNameChar rest := by
  cases rest with
  | nil => exact Text.beginsOutside_nil
  | cons c rest => exact Text.beginsOutside_cons.mpr (not_isNameChar_of_isSign ends)

namespace Chunk

theorem name_all (c : Chunk) : ∀ a ∈ c.name, isNameChar a = true := by
  cases c with
  | number literal name =>
    cases name with
    | none => intro a member; cases member
    | some name => exact name.all
  | signed _ name _ | bare name _ => exact name.all

theorem chars_ne_nil (c : Chunk) : c.chars ≠ [] := by
  cases c with
  | number literal name =>
    obtain ⟨_, _, chars, _⟩ := literal.whole.exists_cons
    simp [Chunk.chars, lead, Lead.chars, Literal.chars, chars]
  | signed sign name _ => simp [Chunk.chars, lead, Lead.chars]
  | bare name _ => exact name.nonempty

/-- A chunk is given by its beginning and its name. -/
theorem eq_of_lead_name {c d : Chunk} (lead : c.lead = d.lead) (name : c.name = d.name) : c = d := by
  cases c with
  | number l n =>
    cases d with
    | signed | bare => cases lead
    | number m o =>
      have literal := Decimal.Literal.chars_inj (Lead.literal.inj lead)
      subst literal
      congr
      cases n with
      | none => cases o with
        | none => rfl
        | some o => exact absurd name.symm o.nonempty
      | some n => cases o with
        | none => exact absurd name n.nonempty
        | some o => exact congrArg some (Identifier.ext name)
  | signed s n _ =>
    cases d with
    | number | bare => cases lead
    | signed t o _ =>
      obtain rfl := Sign.char_inj (Lead.sign.inj lead)
      obtain rfl := Identifier.ext name
      rfl
  | bare n _ =>
    cases d with
    | number | signed => cases lead
    | bare o _ =>
      obtain rfl := Identifier.ext name
      rfl

end Chunk

/-! ### One term -/

theorem spanLiteral_eq_nil {cs : List Char} (stop : BeginsOutside Char.isDigit (spanSign cs).2) :
    spanLiteral cs = ([], cs) := by
  simp [spanLiteral, stop.takeWhile_eq_nil]

theorem Lead.span_of_nil {cs : List Char} (none : spanLiteral cs = ([], cs)) :
    Lead.span cs =
      match spanSign cs with
      | (c :: _, rest) => (.sign c, rest)
      | ([], _) => (.absent, cs) := by
  unfold Lead.span
  cases spanSign cs with
  | mk sign rest => cases sign <;> simp only [none]

theorem Lead.chars_span_of_literal {cs : List Char} (nonempty : (spanLiteral cs).1 ≠ []) :
    (Lead.span cs).1.chars = (spanLiteral cs).1 := by
  unfold Lead.span
  split
  · rename_i cut
    rw [cut]
    rfl
  · rename_i cut
    rw [cut] at nonempty
    exact absurd rfl nonempty

/-- The beginning of a chunk is found at the beginning of the text. -/
theorem Chunk.span {c : Chunk} {rest : List Char} (longest : c.Longest (c.chars ++ rest)) :
    Lead.span (c.chars ++ rest) = (c.lead, c.name ++ rest) := by
  cases c with
  | number literal name =>
    rcases Decimal.spanLiteral_cases (chars (.number literal name) ++ rest) with
      ⟨_, none⟩ | ⟨l, own, after, text, cut⟩
    · exact absurd longest.1 (none literal)
    · obtain rfl := own.unique longest
      obtain ⟨d, digits, whole⟩ := List.exists_cons_of_ne_nil l.chars_ne_nil
      have rest : after = Chunk.name (.number l name) ++ rest := by
        simpa [chars, lead, Lead.chars, eq_comm] using text
      simp only [Lead.span, cut, whole, rest, lead]
  | signed sign name plain =>
    have first : spanSign (chars (.signed sign name plain) ++ rest) =
        ([sign.char], name.chars ++ rest) := by
      simp [chars, lead, Lead.chars, spanSign, Chunk.name]
    rw [Lead.span_of_nil (spanLiteral_eq_nil (first ▸ plain.append rest)), first]
    rfl
  | bare name plain =>
    have first : spanSign (name.chars ++ rest) = ([], name.chars ++ rest) :=
      Decimal.spanSign_signChars none (name.not_sign rest)
    show Lead.span (name.chars ++ rest) = _
    rw [Lead.span_of_nil (spanLiteral_eq_nil (first ▸ plain.append rest)), first]
    rfl

theorem Chunk.lead_coefficient (c : Chunk) : c.lead.coefficient = .ok c.coefficient := by
  cases c with
  | number literal name => simp [lead, Lead.coefficient, Decimal.read?_chars, coefficient]
  | signed sign name plain => cases sign <;> rfl
  | bare name plain => rfl

theorem Chunk.not_bareSign_of_nil {c : Chunk} (empty : c.name = []) : c.lead.isBareSign = false := by
  cases c with
  | number | bare => rfl
  | signed sign name plain => exact absurd empty name.nonempty

/-- A chunk is read as its term. -/
theorem readTerm_chunk {c : Chunk} {rest : List Char} (longest : c.Longest (c.chars ++ rest))
    (ends : endsTerm rest = true) (position : Nat) :
    readTerm position (c.chars ++ rest) =
      .ok (c.term, position + byteLength c.chars, rest) := by
  have stop := not_isNameChar_of_endsTerm ends
  have nonempty : (c.lead.chars ++ c.name).isEmpty = false :=
    List.isEmpty_eq_false_iff.mpr c.chars_ne_nil
  have named : (c.lead.isBareSign && c.name.isEmpty) = false := by
    cases empty : c.name with
    | nil => rw [c.not_bareSign_of_nil empty, Bool.false_and]
    | cons => rw [List.isEmpty_cons, Bool.and_false]
  simp only [readTerm, c.span longest, Text.takeWhile_append c.name_all stop,
    Text.dropWhile_append c.name_all stop, c.lead_coefficient]
  simp [bind, Except.bind, pure, Except.pure, nonempty, ends, named, Chunk.chars,
    Chunk.term]

/-- A term begins with the longest literal, else with a sign before no digit, else with neither. -/
theorem Lead.span_cases (cs : List Char) :
    (∃ (l : Literal) (rest : List Char), l.Longest cs ∧ cs = l.chars ++ rest ∧
        Lead.span cs = (.literal l.chars, rest)) ∨
      (∃ (s : Sign) (rest : List Char), BeginsOutside Char.isDigit rest ∧ cs = s.char :: rest ∧
        Lead.span cs = (.sign s.char, rest)) ∨
      BeginsOutside Char.isDigit cs ∧ Lead.span cs = (.absent, cs) := by
  rcases Decimal.spanLiteral_cases cs with ⟨none, _⟩ | ⟨l, longest, rest, text, cut⟩
  · right
    have stop : BeginsOutside Char.isDigit (spanSign cs).2 := by
      rw [Text.beginsOutside_iff]
      by_contra digits
      simp [spanLiteral, digits] at none
    have append := spanSign_append cs
    obtain ⟨s, sign⟩ := Decimal.exists_spanSign cs
    rw [Lead.span_of_nil none]
    cases spanned : spanSign cs with
    | mk first rest =>
      rw [spanned] at stop append sign
      cases s with
      | none =>
        right
        subst sign
        exact ⟨append ▸ stop, rfl⟩
      | some s =>
        left
        subst sign
        exact ⟨s, rest, stop, append.symm, rfl⟩
  · left
    obtain ⟨d, digits, whole⟩ := List.exists_cons_of_ne_nil l.chars_ne_nil
    exact ⟨l, rest, longest, text, by simp only [Lead.span, cut, whole]⟩

/-- What a term that was read looks like. -/
theorem readTerm_ok {position stop : Nat} {cs rest : List Char} {t : Term Float}
    (read : readTerm position cs = .ok (t, stop, rest)) {lead : Lead} {after : List Char}
    (span : Lead.span cs = (lead, after)) :
    ∃ x, lead.coefficient = .ok x ∧
      t = { coefficient := x, name := String.ofList (after.takeWhile isNameChar) } ∧
      rest = after.dropWhile isNameChar ∧ endsTerm rest = true ∧
      lead.chars ++ after.takeWhile isNameChar ≠ [] ∧
      (lead.isBareSign = true → after.takeWhile isNameChar ≠ []) := by
  simp only [readTerm, span] at read
  cases coefficient : lead.coefficient with
  | error e => rw [coefficient] at read; cases read
  | ok x =>
    simp only [coefficient, bind, Except.bind, pure, Except.pure, throw, throwThe,
      MonadExceptOf.throw] at read
    split at read
    · cases read
    · rename_i consumed
      split at read
      · cases read
      · rename_i ends
        split at read
        · cases read
        · rename_i named
          cases read
          refine ⟨x, rfl, rfl, rfl, by simpa using ends, ?_, ?_⟩
          · rwa [List.isEmpty_iff] at consumed
          · rw [Bool.and_eq_true, List.isEmpty_iff, not_and] at named
            exact named

theorem exists_identifier {after : List Char} (nonempty : after.takeWhile isNameChar ≠ []) :
    ∃ n : Identifier, n.chars = after.takeWhile isNameChar :=
  ⟨⟨_, nonempty, fun _ member => List.mem_takeWhile_imp member⟩, rfl⟩

theorem Identifier.plain_of_takeWhile {n : Identifier} {after : List Char}
    (chars : n.chars = after.takeWhile isNameChar) (stop : BeginsOutside Char.isDigit after) :
    n.Plain := by
  rw [← List.takeWhile_append_dropWhile (p := isNameChar) (l := after), ← chars] at stop
  exact BeginsOutside.of_append stop

/-- A beginning and the name behind it form a chunk. -/
theorem exists_chunk_of_span {cs after : List Char} {lead : Lead}
    (span : Lead.span cs = (lead, after))
    (nonempty : lead.chars ++ after.takeWhile isNameChar ≠ [])
    (signed : lead.isBareSign = true → after.takeWhile isNameChar ≠ []) :
    ∃ c : Chunk, c.lead = lead ∧ c.name = after.takeWhile isNameChar ∧ c.Longest cs := by
  rcases Lead.span_cases cs with ⟨l, rest, longest, _, found⟩ | ⟨s, rest, stop, _, found⟩ |
    ⟨stop, found⟩ <;> cases span.symm.trans found
  · by_cases named : after.takeWhile isNameChar = []
    · exact ⟨.number l none, rfl, named.symm, longest⟩
    · obtain ⟨n, chars⟩ := exists_identifier named
      exact ⟨.number l (some n), rfl, chars, longest⟩
  · obtain ⟨n, chars⟩ := exists_identifier (signed rfl)
    exact ⟨.signed s n (n.plain_of_takeWhile chars stop), rfl, chars, trivial⟩
  · obtain ⟨n, chars⟩ := exists_identifier nonempty
    exact ⟨.bare n (n.plain_of_takeWhile chars stop), rfl, chars, trivial⟩

/-- What was read as a term is a chunk. -/
theorem exists_chunk {position stop : Nat} {cs rest : List Char} {t : Term Float}
    (read : readTerm position cs = .ok (t, stop, rest)) :
    ∃ c : Chunk, cs = c.chars ++ rest ∧ c.Longest cs ∧ endsTerm rest = true ∧ t = c.term := by
  have text := Lead.span_append cs
  cases span : Lead.span cs with
  | mk lead after =>
    obtain ⟨x, coefficient, term, remainder, ends, nonempty, signed⟩ := readTerm_ok read span
    obtain ⟨c, rfl, name, longest⟩ := exists_chunk_of_span span nonempty signed
    rw [c.lead_coefficient] at coefficient
    cases coefficient
    refine ⟨c, ?_, longest, ends, ?_⟩
    · rw [span] at text
      rw [Chunk.chars, name, remainder, List.append_assoc, List.takeWhile_append_dropWhile, text]
    · rw [term, Chunk.term, name]

/-- The name of a chunk does not begin with a digit: one would belong to the literal. -/
theorem Chunk.name_plain {c : Chunk} {rest : List Char} (longest : c.Longest (c.chars ++ rest)) :
    BeginsOutside Char.isDigit c.name := by
  cases c with
  | number literal name =>
    have text : chars (.number literal name) ++ rest =
        literal.chars ++ (Chunk.name (.number literal name) ++ rest) := by
      rw [chars, lead, Lead.chars, List.append_assoc]
    have stop : BeginsOutside Char.isDigit (Chunk.name (.number literal name) ++ rest) :=
      Decimal.Literal.Longest.not_digit (text ▸ longest)
    exact stop.of_append
  | signed _ _ plain | bare _ plain => exact plain

/-! ### Whole texts -/

theorem readTerms_of_follows {cs : List Char} {chunks : List Chunk} (follows : Follows cs chunks)
    (position : Nat) : readTerms position cs = .ok (chunks.map Chunk.term) := by
  induction follows generalizing position with
  | nil => rw [readTerms]; rfl
  | @cons cs rest chunk later text longest ends _ ih =>
    subst text
    have nonempty : (chunk.chars ++ rest).isEmpty = false := by
      simp [chunk.chars_ne_nil]
    rw [readTerms, nonempty, if_neg Bool.false_ne_true]
    split
    · rename_i issue failed
      rw [readTerm_chunk longest ends] at failed
      cases failed
    · rename_i t stop after read
      rw [readTerm_chunk longest ends] at read
      cases read
      rw [ih]
      rfl

theorem exists_follows {position : Nat} {cs : List Char} {terms : Expression Float}
    (read : readTerms position cs = .ok terms) :
    ∃ chunks, Follows cs chunks ∧ chunks.map Chunk.term = terms := by
  induction position, cs using readTerms.induct generalizing terms with
  | case1 position cs empty =>
    rw [readTerms, if_pos empty] at read
    cases read
    rw [List.isEmpty_iff.mp empty]
    exact ⟨[], .nil, rfl⟩
  | case2 position cs nonempty issue failed =>
    rw [readTerms, if_neg nonempty] at read
    split at read
    · cases read
    · rename_i found
      cases failed.symm.trans found
  | case3 position cs nonempty t stop rest first _ ih =>
    obtain ⟨c, text, longest, ends, term⟩ := exists_chunk first
    rw [readTerms, if_neg nonempty] at read
    split at read
    · cases read
    · rename_i found
      cases first.symm.trans found
      cases remaining : readTerms stop rest with
      | error issue => rw [remaining] at read; cases read
      | ok later =>
        obtain ⟨chunks, follows, rfl⟩ := ih remaining
        rw [remaining] at read
        cases read
        exact ⟨c :: chunks, .cons text longest ends follows, by rw [List.map_cons, term]⟩

theorem Follows.eq_nil_iff {cs : List Char} {chunks : List Chunk} (h : Follows cs chunks) :
    chunks = [] ↔ cs = [] := by
  cases h with
  | nil => simp
  | @cons _ rest c _ text => simp [text, c.chars_ne_nil]

/-- The chunk at the beginning of a text, and with it what follows, is determined by the text. -/
theorem Chunk.eq_of_append {c d : Chunk} {rest after : List Char}
    (same : c.chars ++ rest = d.chars ++ after)
    (longest : c.Longest (c.chars ++ rest)) (ends : endsTerm rest = true)
    (longest' : d.Longest (d.chars ++ after)) (ends' : endsTerm after = true) :
    c = d ∧ rest = after := by
  have own := Chunk.span longest
  rw [same, Chunk.span longest'] at own
  obtain ⟨lead, text⟩ := Prod.mk.inj own
  obtain ⟨name, remainder⟩ := Text.eq_of_append text d.name_all c.name_all
    (not_isNameChar_of_endsTerm ends') (not_isNameChar_of_endsTerm ends)
  exact ⟨Chunk.eq_of_lead_name lead.symm name.symm, remainder.symm⟩

/-- The chunks that follow one another in a text are determined by it. -/
theorem Follows.unique {cs : List Char} {chunks other : List Chunk} (h : Follows cs chunks)
    (k : Follows cs other) : chunks = other := by
  induction h generalizing other with
  | nil =>
    exact (k.eq_nil_iff.mpr rfl).symm
  | @cons cs rest c later text longest ends _ ih =>
    cases k with
    | nil => simp [c.chars_ne_nil] at text
    | @cons _ rest' d later' text' longest' ends' follows' =>
      obtain ⟨rfl, rfl⟩ := Chunk.eq_of_append (text.symm.trans text') (text ▸ longest) ends
        (text' ▸ longest') ends'
      rw [ih follows']

theorem Chunk.endsTerm_append_iff (c : Chunk) (rest : List Char) :
    endsTerm (c.chars ++ rest) = true ↔ c.BeginsWithSign := by
  obtain ⟨a, later, chars⟩ := List.exists_cons_of_ne_nil c.chars_ne_nil
  simp [BeginsWithSign, chars, endsTerm]

theorem follows_of_signed {chunks : List Chunk}
    (signed : ∀ chunk ∈ chunks.tail, chunk.BeginsWithSign)
    (longest : ∀ before chunk after, chunks = before ++ chunk :: after →
      chunk.Longest ((chunk :: after).flatMap Chunk.chars)) :
    Follows (chunks.flatMap Chunk.chars) chunks := by
  induction chunks with
  | nil => exact .nil
  | cons c later ih =>
    have ends : endsTerm (later.flatMap Chunk.chars) = true := by
      cases later with
      | nil => rfl
      | cons d _ =>
        rw [List.flatMap_cons, d.endsTerm_append_iff]
        exact signed d List.mem_cons_self
    refine .cons List.flatMap_cons (longest [] c later rfl) ends (ih ?_ ?_)
    · exact fun d member => signed d (List.mem_of_mem_tail member)
    · intro before d after split
      exact longest (c :: before) d after (by rw [split, List.cons_append])

theorem Follows.splits {cs : List Char} {chunks : List Chunk} (h : Follows cs chunks) :
    chunks.flatMap Chunk.chars = cs ∧ (∀ chunk ∈ chunks.tail, chunk.BeginsWithSign) ∧
      ∀ before chunk after, chunks = before ++ chunk :: after →
        chunk.Longest ((chunk :: after).flatMap Chunk.chars) := by
  induction h with
  | nil => simp
  | @cons cs rest c later text longest ends _ ih =>
    obtain ⟨joined, signed, longer⟩ := ih
    have whole : (c :: later).flatMap Chunk.chars = cs := by
      rw [List.flatMap_cons, joined, text]
    refine ⟨whole, ?_, ?_⟩
    · intro d member
      cases later with
      | nil => cases member
      | cons first others =>
        rw [List.flatMap_cons] at joined
        rcases List.mem_cons.mp member with rfl | member
        · exact (d.endsTerm_append_iff _).mp (joined ▸ ends)
        · exact signed d member
    · intro before d after split
      cases before with
      | nil =>
        obtain ⟨rfl, rfl⟩ := List.cons.inj split
        exact whole.symm ▸ longest
      | cons b before => exact longer before d after (List.cons.inj split).2

theorem splits_iff {cs : List Char} {chunks : List Chunk} :
    Splits cs chunks ↔ Follows cs chunks ∧ chunks ≠ [] := by
  constructor
  · rintro ⟨rfl, nonempty, signed, longest⟩
    exact ⟨follows_of_signed signed longest, nonempty⟩
  · rintro ⟨follows, nonempty⟩
    obtain ⟨joined, signed, longest⟩ := follows.splits
    exact ⟨joined, nonempty, signed, longest⟩

theorem Splits.unique {cs : List Char} {chunks other : List Chunk} (h : Splits cs chunks)
    (k : Splits cs other) : other = chunks :=
  (splits_iff.mp k).1.unique (splits_iff.mp h).1

/-- An expression that was read consists of the terms of the chunks of its text. -/
theorem read_iff {text : String} {terms : Expression Float} : Expression.read text = .ok terms ↔
    ∃ chunks, Splits text.toList chunks ∧ chunks.map Chunk.term = terms := by
  unfold Expression.read
  by_cases empty : text = ""
  · subst empty
    constructor
    · intro read
      cases read
    · rintro ⟨chunks, splits, _⟩
      obtain ⟨follows, nonempty⟩ := splits_iff.mp splits
      exact absurd (follows.eq_nil_iff.mpr rfl) nonempty
  · rw [if_neg (by simpa using empty)]
    constructor
    · intro read
      obtain ⟨chunks, follows, terms⟩ := exists_follows read
      refine ⟨chunks, splits_iff.mpr ⟨follows, ?_⟩, terms⟩
      intro none
      exact empty (String.toList_inj.mp (follows.eq_nil_iff.mp none))
    · rintro ⟨chunks, splits, rfl⟩
      exact readTerms_of_follows (splits_iff.mp splits).1 0

/-- A text is read as an expression just if it splits into chunks, and it splits in one way only; the
    expression consists of the terms of the chunks. -/
theorem read_eq_ok_iff_splits (text : String) :
    (∀ terms, Expression.read text = .ok terms ↔
      ∃ chunks, Splits text.toList chunks ∧ chunks.map Chunk.term = terms) ∧
    ∀ chunks, Splits text.toList chunks → ∀ other, Splits text.toList other → other = chunks :=
  ⟨fun _ => read_iff, fun _ splits _ splits' => splits.unique splits'⟩

/-- A point, an exponent with a sign, and letters `e` that begin names: one split only. -/
theorem lookahead_splits : ∃ chunks, Splits "-2.5e+1x3+e5-7e".toList chunks ∧
    chunks.map Chunk.term = [{ coefficient := -25, name := "x3" }, { coefficient := 1, name := "e5" },
      { coefficient := -7, name := "e" }] ∧
    ∀ other, Splits "-2.5e+1x3+e5-7e".toList other → other = chunks := by
  obtain ⟨chunks, splits, terms⟩ := ((read_eq_ok_iff_splits "-2.5e+1x3+e5-7e").1
    [{ coefficient := -25, name := "x3" }, { coefficient := 1, name := "e5" },
      { coefficient := -7, name := "e" }]).mp (by decide +kernel)
  exact ⟨chunks, splits, terms, (read_eq_ok_iff_splits _).2 chunks splits⟩

end Simplex.Expression
