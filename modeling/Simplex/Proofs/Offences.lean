import Simplex.Proofs.Grammar
import Simplex.Proofs.Positions

/-!
Where a text stops being an expression. What was read before an issue can be cut off there and is an
expression by itself, since a literal that is the longest stays the longest in a shorter text. The
issue stands at the first character that cannot go on: no expression that begins the text goes past
it (`first_offence`).
-/
namespace Simplex.Expression

open Decimal (Sign Literal)
open Text (BeginsOutside isNameChar)

/-! ### Cutting a text off -/

/-- A chunk that fits into a shorter text is the longest there too. -/
theorem Chunk.Longest.of_isPrefix {c : Chunk} {cs ds : List Char} (longest : c.Longest cs)
    (own : c.chars <+: ds) (begins : ds <+: cs) : c.Longest ds := by
  cases c with
  | number literal name =>
    have first : literal.chars <+: chars (.number literal name) := List.prefix_append _ _
    exact ⟨first.trans own, fun m other => longest.2 m (other.trans begins)⟩
  | signed | bare => trivial

theorem endsTerm_of_isPrefix {cs ds : List Char} (ends : endsTerm cs = true) (begins : ds <+: cs) :
    endsTerm ds = true := by
  obtain ⟨rest, rfl⟩ := begins
  cases ds with
  | nil => rfl
  | cons c later => exact ends

theorem Follows.exists_cons {cs : List Char} {chunks : List Chunk} (h : Follows cs chunks)
    (nonempty : cs ≠ []) : ∃ c later rest, cs = c.chars ++ rest ∧ c.Longest cs ∧
      endsTerm rest = true ∧ Follows rest later ∧ chunks = c :: later := by
  cases h with
  | nil => exact absurd rfl nonempty
  | @cons _ rest c later text longest ends follows =>
    exact ⟨c, later, rest, text, longest, ends, follows, rfl⟩

/-- The text begins with the chunks, each ending where a term may end; the tail is what lies behind
    them. -/
inductive Opens : List Char → List Chunk → List Char → Prop
  | here (tail : List Char) : Opens tail [] tail
  | cons {cs rest tail : List Char} {chunk : Chunk} {later : List Chunk}
      (text : cs = chunk.chars ++ rest) (longest : chunk.Longest cs) (ends : endsTerm rest = true)
      (opens : Opens rest later tail) : Opens cs (chunk :: later) tail

namespace Opens

variable {cs tail : List Char} {chunks : List Chunk}

theorem joined (h : Opens cs chunks tail) : cs = chunks.flatMap Chunk.chars ++ tail := by
  induction h with
  | here tail => rfl
  | cons text _ _ _ ih => rw [List.flatMap_cons, List.append_assoc, ← ih, text]

/-- The text can be cut off behind the chunks and whatever follows them in it. -/
theorem follows (h : Opens cs chunks tail) {ds : List Char} {others : List Chunk}
    (begins : ds <+: tail) (follows : Follows ds others) :
    Follows (chunks.flatMap Chunk.chars ++ ds) (chunks ++ others) := by
  induction h with
  | here tail => exact follows
  | @cons cs rest tail chunk later text longest ends opens ih =>
    have within : later.flatMap Chunk.chars ++ ds <+: rest := by
      rw [opens.joined]
      exact (List.prefix_append_right_inj _).mpr begins
    have shorter : chunk.chars ++ (later.flatMap Chunk.chars ++ ds) <+: cs := by
      rw [text]
      exact (List.prefix_append_right_inj _).mpr within
    rw [List.flatMap_cons, List.append_assoc]
    exact .cons rfl (longest.of_isPrefix (List.prefix_append _ _) shorter)
      (endsTerm_of_isPrefix ends within) (ih begins)

/-- No cut is an expression that goes past a place in the tail, if none of the tail does. -/
theorem length_le (h : Opens cs chunks tail) {k : Nat}
    (own : ∀ ds others, ds <+: tail → Follows ds others → ds.length ≤ k) {ds : List Char}
    {others : List Chunk} (begins : ds <+: cs) (follows : Follows ds others) :
    ds.length ≤ (chunks.flatMap Chunk.chars).length + k := by
  induction h generalizing ds others with
  | here tail => simpa using own ds others begins follows
  | @cons cs rest tail chunk later text longest ends opens ih =>
    rw [List.flatMap_cons, List.length_append]
    by_cases short : ds.length ≤ chunk.chars.length
    · omega
    · -- the cut goes past the chunk, so it begins with the same one
      have own' : chunk.chars <+: cs := by
        rw [text]
        exact List.prefix_append _ _
      have first := List.prefix_of_prefix_length_le own' begins (by omega)
      obtain ⟨after, rfl⟩ := first
      have remaining : after <+: rest := by
        rw [text] at begins
        exact (List.prefix_append_right_inj _).mp begins
      have same := longest.of_isPrefix (List.prefix_append _ _) begins
      obtain ⟨d, _, behind, text', longest', ends', follows', _⟩ :=
        follows.exists_cons (List.append_ne_nil_of_left_ne_nil chunk.chars_ne_nil after)
      obtain ⟨rfl, rfl⟩ := Chunk.eq_of_append text' same (endsTerm_of_isPrefix ends remaining)
        (text' ▸ longest') ends'
      have shorter := ih own remaining follows'
      rw [List.length_append]
      omega

end Opens

/-! ### The term that fails -/

section Failure

variable {position : Nat} {tail after : List Char} {lead : Lead} {issue : Issue}

theorem exists_coefficient (span : Lead.span tail = (lead, after)) :
    ∃ x, lead.coefficient = .ok x := by
  rcases Lead.span_cases tail with ⟨l, rest, _, _, found⟩ | ⟨s, rest, _, _, found⟩ | ⟨_, found⟩ <;>
    cases span.symm.trans found
  · exact ⟨l.value, by simp [Lead.coefficient, Decimal.read?_chars]⟩
  · exact ⟨_, rfl⟩
  · exact ⟨_, rfl⟩

theorem span_text (span : Lead.span tail = (lead, after)) :
    tail = lead.chars ++ after.takeWhile isNameChar ++ after.dropWhile isNameChar := by
  have text := Lead.span_append tail
  rw [span] at text
  rw [List.append_assoc, List.takeWhile_append_dropWhile, text]

/-- A term fails at the character behind what can begin it, or at a sign behind which nothing
    begins. -/
theorem readTerm_error (failed : readTerm position tail = .error issue)
    (span : Lead.span tail = (lead, after)) (nonempty : tail ≠ []) :
    (∃ found rest, after.dropWhile isNameChar = found :: rest ∧
      issue = .unexpectedChar found
        (position + byteLength (lead.chars ++ after.takeWhile isNameChar))) ∨
    lead.isBareSign = true ∧ after.takeWhile isNameChar = [] ∧
      endsTerm (after.dropWhile isNameChar) = true ∧ issue = .danglingSign position := by
  obtain ⟨x, coefficient⟩ := exists_coefficient span
  have text := span_text span
  simp only [readTerm, span, coefficient, bind, Except.bind, pure, Except.pure, throw, throwThe,
    MonadExceptOf.throw] at failed
  split at failed
  · rename_i nothing
    rw [List.isEmpty_iff] at nothing
    rw [nothing, List.nil_append] at text
    obtain ⟨found, rest, first⟩ := List.exists_cons_of_ne_nil nonempty
    cases failed
    exact .inl ⟨found, rest, text ▸ first, by rw [← text, first]; rfl⟩
  · split at failed
    · rename_i stuck
      cases first : after.dropWhile isNameChar with
      | nil => simp [first, endsTerm] at stuck
      | cons found rest =>
        rw [first] at failed
        cases failed
        exact .inl ⟨found, rest, rfl, rfl⟩
    · rename_i ends
      split at failed
      · rename_i bare
        rw [Bool.and_eq_true, List.isEmpty_iff] at bare
        cases failed
        exact .inr ⟨bare.1, bare.2, by simpa using ends, rfl⟩
      · cases failed

/-- What can begin a term is nothing, a chunk, or a sign alone. -/
theorem lead_cases (span : Lead.span tail = (lead, after)) :
    lead.chars ++ after.takeWhile isNameChar = [] ∨
    (∃ c : Chunk, c.chars = lead.chars ++ after.takeWhile isNameChar ∧ c.Longest tail) ∨
    ∃ s : Sign, lead = .sign s.char ∧ after.takeWhile isNameChar = [] := by
  by_cases nothing : lead.chars ++ after.takeWhile isNameChar = []
  · exact .inl nothing
  · by_cases signed : lead.isBareSign = true → after.takeWhile isNameChar ≠ []
    · obtain ⟨c, rfl, name, longest⟩ := exists_chunk_of_span span nothing signed
      exact .inr (.inl ⟨c, by rw [Chunk.chars, name], longest⟩)
    · obtain ⟨bare, none⟩ := Classical.not_imp.mp signed
      rcases Lead.span_cases tail with ⟨l, rest, _, _, found⟩ | ⟨s, rest, _, _, found⟩ |
        ⟨_, found⟩ <;> cases span.symm.trans found
      · cases bare
      · exact .inr (.inr ⟨s, rfl, by simpa using none⟩)
      · cases bare

/-- A chunk that is not the longest in the whole text is a literal which goes on behind the cut. -/
theorem exists_longer {c : Chunk} {ds : List Char} (longest : c.Longest ds) (begins : ds <+: tail)
    (shorter : ¬ c.Longest tail) : ∃ (m : Literal) (rest : List Char), m.Longest tail ∧
      Lead.span tail = (.literal m.chars, rest) ∧ ds.length < m.chars.length := by
  cases c with
  | signed | bare => exact absurd trivial shorter
  | number l name =>
    rcases Decimal.spanLiteral_cases tail with ⟨_, none⟩ | ⟨m, most, rest, text, _⟩
    · exact absurd (longest.1.trans begins) (none l)
    · have whole : tail = (Chunk.number m none).chars ++ rest := by
        simpa [Chunk.chars, Chunk.lead, Lead.chars, Chunk.name] using text
      have span : Lead.span ((Chunk.number m none).chars ++ rest) = (.literal m.chars, rest) :=
        Chunk.span (whole ▸ most)
      rw [← whole] at span
      refine ⟨m, rest, most, span, Nat.lt_of_not_le fun fits => shorter ?_⟩
      have inside := List.prefix_of_prefix_length_le most.1 begins fits
      exact ⟨longest.1.trans begins, fun o other => (most.2 o other).trans (longest.2 m inside)⟩

/-- No expression that begins the tail goes past what begins the term that fails; a sign alone is
    none. -/
theorem length_le_of_follows (failed : readTerm position tail = .error issue)
    (span : Lead.span tail = (lead, after)) {ds : List Char} {others : List Chunk}
    (begins : ds <+: tail) (follows : Follows ds others) (nonempty : ds ≠ []) :
    ds.length ≤ (lead.chars ++ after.takeWhile isNameChar).length ∧
      (lead.isBareSign = true → after.takeWhile isNameChar ≠ []) := by
  obtain ⟨d, _, rest, text, longest, ends, _, _⟩ := follows.exists_cons nonempty
  by_cases own : d.Longest tail
  · obtain ⟨behind, rfl⟩ := begins
    rw [text, List.append_assoc] at own span failed
    obtain ⟨rfl, rfl⟩ := Prod.mk.inj ((Chunk.span own).symm.trans span)
    cases rest with
    | cons c rest =>
      -- the chunk would have been read
      rw [readTerm_chunk own ends] at failed
      cases failed
    | nil =>
      have name : d.name <+: (d.name ++ ([] ++ behind)).takeWhile isNameChar := by
        rw [List.takeWhile_append_of_pos d.name_all]
        exact List.prefix_append _ _
      refine ⟨?_, fun bare none => ?_⟩
      · rw [text, List.append_nil, Chunk.chars, List.length_append, List.length_append]
        exact Nat.add_le_add_left name.length_le _
      · rw [none, List.prefix_nil] at name
        rw [d.not_bareSign_of_nil name] at bare
        cases bare
  · -- a longer literal begins the tail, one that the cut splits
    obtain ⟨m, behind, longest', lead', cut⟩ := exists_longer longest begins own
    obtain ⟨rfl, rfl⟩ := Prod.mk.inj (lead'.symm.trans span)
    refine ⟨?_, fun bare => by cases bare⟩
    rw [List.length_append]
    exact cut.le.trans (Nat.le_add_right _ _)

end Failure

/-! ### The way to the failure -/

/-- A term that was read ends behind its chunk. -/
theorem exists_chunk_stop {position stop : Nat} {cs rest : List Char} {t : Term Float}
    (read : readTerm position cs = .ok (t, stop, rest)) : ∃ c : Chunk, cs = c.chars ++ rest ∧
      c.Longest cs ∧ endsTerm rest = true ∧ stop = position + byteLength c.chars := by
  obtain ⟨c, text, longest, ends, _⟩ := exists_chunk read
  subst text
  rw [readTerm_chunk longest ends] at read
  cases read
  exact ⟨c, rfl, longest, ends, rfl⟩

/-- A text that is not read is read as chunks up to a term that fails. -/
theorem exists_opens {position : Nat} {cs : List Char} {issue : Issue}
    (failed : readTerms position cs = .error issue) : ∃ chunks tail, Opens cs chunks tail ∧ tail ≠ [] ∧
      readTerm (position + byteLength (chunks.flatMap Chunk.chars)) tail = .error issue := by
  induction position, cs using readTerms.induct with
  | case1 position cs empty =>
    rw [readTerms, if_pos empty] at failed
    cases failed
  | case2 position cs nonempty first stuck =>
    rw [readTerms, if_neg nonempty] at failed
    split at failed
    · rename_i found
      cases failed
      exact ⟨[], cs, .here cs, by simpa using nonempty, found⟩
    · rename_i found
      cases stuck.symm.trans found
  | case3 position cs nonempty t stop rest first _ ih =>
    rw [readTerms, if_neg nonempty] at failed
    split at failed
    · rename_i found
      cases first.symm.trans found
    · rename_i found
      cases first.symm.trans found
      cases remaining : readTerms stop rest with
      | ok later => rw [remaining] at failed; cases failed
      | error other =>
        rw [remaining] at failed
        cases failed
        obtain ⟨c, text, longest, ends, rfl⟩ := exists_chunk_stop first
        obtain ⟨chunks, tail, opens, left, stuck⟩ := ih remaining
        refine ⟨c :: chunks, tail, .cons text longest ends opens, left, ?_⟩
        rw [List.flatMap_cons, byteLength_append, ← Nat.add_assoc]
        exact stuck

/-! ### Issues and texts -/

/-- The text is an expression. -/
def Accepted (text : String) : Prop := ∃ e, Expression.read text = .ok e

/-- The text is empty or an expression. -/
def Complete (text : String) : Prop := text = "" ∨ Accepted text

/-- No expression that begins the text goes past the position. -/
def NoneBeyond (text : String) (position : Nat) : Prop :=
  ∀ opening rest, text = opening ++ rest → Accepted opening → opening.utf8ByteSize ≤ position

/-- An issue of a text, at the position where the text before it ends. A character is one that cannot
    follow what is complete, with or without a sign behind it; a sign dangles if nothing follows it
    but the end or a sign. -/
inductive Offence (text : String) : Issue → Prop
  | empty (nothing : text = "") : Offence text .empty
  | unexpectedChar {opening rest : String} {found : Char}
      (split : text = opening ++ String.singleton found ++ rest)
      (complete : Complete opening ∨
        ∃ earlier sign, opening = earlier ++ String.singleton sign ∧ isSign sign = true ∧
          Complete earlier)
      (first : NoneBeyond text opening.utf8ByteSize) :
      Offence text (.unexpectedChar found opening.utf8ByteSize)
  | danglingSign {opening rest : String} {sign : Char}
      (split : text = opening ++ String.singleton sign ++ rest) (signed : isSign sign = true)
      (complete : Complete opening) (ends : rest = "" ∨ ∃ c ∈ rest.toList.head?, isSign c = true)
      (first : NoneBeyond text opening.utf8ByteSize) :
      Offence text (.danglingSign opening.utf8ByteSize)

theorem accepted_iff {cs : List Char} :
    Accepted (String.ofList cs) ↔ cs ≠ [] ∧ ∃ chunks, Follows cs chunks := by
  constructor
  · rintro ⟨e, read⟩
    obtain ⟨chunks, splits, _⟩ := read_iff.mp read
    rw [String.toList_ofList] at splits
    obtain ⟨follows, nonempty⟩ := splits_iff.mp splits
    exact ⟨fun none => nonempty (follows.eq_nil_iff.mpr none), chunks, follows⟩
  · rintro ⟨nonempty, chunks, follows⟩
    refine ⟨chunks.map Chunk.term, read_iff.mpr ⟨chunks, ?_, rfl⟩⟩
    rw [String.toList_ofList]
    exact splits_iff.mpr ⟨follows, fun none => nonempty (follows.eq_nil_iff.mp none)⟩

theorem complete_of_follows {cs : List Char} {chunks : List Chunk} (follows : Follows cs chunks) :
    Complete (String.ofList cs) := by
  by_cases empty : cs = []
  · exact .inl (by rw [empty, String.ofList_nil])
  · exact .inr (accepted_iff.mpr ⟨empty, chunks, follows⟩)

section Texts

variable {text : String} {chunks : List Chunk} {tail : List Char}

theorem noneBeyond_of_opens (opens : Opens text.toList chunks tail) {ds : List Char}
    (begins : ds <+: tail)
    (own : ∀ es others, es <+: tail → Follows es others → es.length ≤ ds.length) :
    NoneBeyond text (byteLength (chunks.flatMap Chunk.chars ++ ds)) := by
  intro opening rest split accepted
  rw [← String.ofList_toList (s := opening), accepted_iff] at accepted
  obtain ⟨_, others, follows⟩ := accepted
  have whole : opening.toList <+: text.toList := by
    rw [split, String.toList_append]
    exact List.prefix_append _ _
  have cut : chunks.flatMap Chunk.chars ++ ds <+: text.toList := by
    rw [opens.joined]
    exact (List.prefix_append_right_inj _).mpr begins
  have short := opens.length_le own whole follows
  rw [← List.length_append] at short
  rw [← String.ofList_toList (s := opening), utf8ByteSize_ofList]
  exact byteLength_le_of_isPrefix (List.prefix_of_prefix_length_le whole cut short)

/-- A character that cannot follow stands behind what can begin a term. -/
theorem offence_of_unexpected (opens : Opens text.toList chunks tail) {position : Nat} {issue : Issue}
    (stuck : readTerm position tail = .error issue) {lead : Lead} {after rest : List Char}
    (span : Lead.span tail = (lead, after)) {found : Char}
    (first : after.dropWhile isNameChar = found :: rest) :
    Offence text (.unexpectedChar found (byteLength
      (chunks.flatMap Chunk.chars ++ (lead.chars ++ after.takeWhile isNameChar)))) := by
  have cut := span_text span
  rw [first] at cut
  have begins : lead.chars ++ after.takeWhile isNameChar <+: tail := ⟨_, cut.symm⟩
  have split : text = String.ofList
      (chunks.flatMap Chunk.chars ++ (lead.chars ++ after.takeWhile isNameChar)) ++
        String.singleton found ++ String.ofList rest := by
    rw [← String.toList_inj, opens.joined, cut]
    simp
  rw [← utf8ByteSize_ofList]
  refine .unexpectedChar split ?_ ?_
  · rcases lead_cases span with nothing | ⟨c, chars, longest⟩ | ⟨s, rfl, none⟩
    · rw [nothing]
      exact .inl (complete_of_follows (opens.follows List.nil_prefix .nil))
    · rw [← chars] at begins ⊢
      have own : Follows c.chars [c] :=
        .cons (List.append_nil _).symm (longest.of_isPrefix (List.prefix_refl _) begins) rfl .nil
      exact .inl (complete_of_follows (opens.follows begins own))
    · have earlier := complete_of_follows (opens.follows List.nil_prefix .nil)
      rw [List.append_nil] at earlier
      refine .inr ⟨_, s.char, ?_, Decimal.isSign_char s, earlier⟩
      rw [none, String.singleton_eq_ofList, ← String.ofList_append]
      rfl
  · rw [utf8ByteSize_ofList]
    refine noneBeyond_of_opens opens begins fun ds others cut follows => ?_
    by_cases nonempty : ds = []
    · simp [nonempty]
    · exact (length_le_of_follows stuck span cut follows nonempty).1

/-- A sign dangles where a term would begin. -/
theorem offence_of_dangling (opens : Opens text.toList chunks tail) {position : Nat} {issue : Issue}
    (stuck : readTerm position tail = .error issue) {lead : Lead} {after : List Char}
    (span : Lead.span tail = (lead, after)) (bare : lead.isBareSign = true)
    (none : after.takeWhile isNameChar = []) (ends : endsTerm (after.dropWhile isNameChar) = true) :
    Offence text (.danglingSign (byteLength (chunks.flatMap Chunk.chars))) := by
  have cut := span_text span
  obtain ⟨s, rfl⟩ : ∃ s : Sign, lead = .sign s.char := by
    rcases Lead.span_cases tail with ⟨_, _, _, _, found⟩ | ⟨s, _, _, _, found⟩ | ⟨_, found⟩ <;>
      cases span.symm.trans found
    · cases bare
    · exact ⟨s, rfl⟩
    · cases bare
  have before := complete_of_follows (opens.follows List.nil_prefix .nil)
  rw [List.append_nil] at before
  rw [← utf8ByteSize_ofList]
  have split : text = String.ofList (chunks.flatMap Chunk.chars) ++ String.singleton s.char ++
      String.ofList (after.dropWhile isNameChar) := by
    rw [← String.toList_inj, opens.joined, cut, none]
    simp [Lead.chars]
  refine .danglingSign split (Decimal.isSign_char s) before ?_ ?_
  · cases behind : after.dropWhile isNameChar with
    | nil => exact .inl String.ofList_nil
    | cons c rest =>
      rw [behind] at ends
      exact .inr ⟨c, by simp, ends⟩
  · have none_begins : ∀ ds others, ds <+: tail → Follows ds others →
        ds.length ≤ ([] : List Char).length := by
      intro ds others cut follows
      by_cases nonempty : ds = []
      · simp [nonempty]
      · exact absurd none ((length_le_of_follows stuck span cut follows nonempty).2 bare)
    have beyond := noneBeyond_of_opens opens List.nil_prefix none_begins
    rwa [List.append_nil, ← utf8ByteSize_ofList] at beyond

end Texts

theorem offence_of_read_error {text : String} {issue : Issue}
    (failed : Expression.read text = .error issue) : Offence text issue := by
  unfold Expression.read at failed
  split at failed
  · rename_i empty
    cases failed
    exact .empty (by simpa using empty)
  · obtain ⟨chunks, tail, opens, left, stuck⟩ := exists_opens failed
    rw [Nat.zero_add] at stuck
    cases span : Lead.span tail with
    | mk lead after =>
      rcases readTerm_error stuck span left with ⟨found, rest, first, rfl⟩ |
        ⟨bare, none, ends, rfl⟩
      · rw [← byteLength_append]
        exact offence_of_unexpected opens stuck span first
      · exact offence_of_dangling opens stuck span bare none ends

end Simplex.Expression

namespace Simplex

/-- The issue of a text that is no expression points at the first offence. The text is empty just if
    the issue says so, and no number is ever invalid. Otherwise the position is that of a character of
    the text, in bytes: one that was not expected, behind what is complete or a sign that follows it,
    or a sign with nothing to it, behind what is complete. No expression that begins the text goes
    past the position. -/
theorem first_offence {text : String} {issue : Expression.Issue}
    (failed : Expression.read text = .error issue) :
    Expression.Offence text issue ∧ (issue = .empty ↔ text = "") ∧
      ∀ literal, issue ≠ .invalidNumber literal := by
  have offence := Expression.offence_of_read_error failed
  refine ⟨offence, ⟨?_, ?_⟩, ?_⟩
  · rintro rfl
    cases offence with
    | empty nothing => exact nothing
  · rintro rfl
    cases failed
    rfl
  · rintro literal rfl
    cases offence

/-- A name of two bytes, a sign and a fraction before the star. -/
theorem star_first_offence :
    Expression.read "2é+3.5*x" = .error (.unexpectedChar '*' 7) ∧
    Expression.Offence "2é+3.5*x" (.unexpectedChar '*' 7) ∧
    Expression.read "-x1--3" = .error (.danglingSign 3) ∧
    Expression.Offence "-x1--3" (.danglingSign 3) := by
  have star : Expression.read "2é+3.5*x" = .error (.unexpectedChar '*' 7) := by decide +kernel
  have sign : Expression.read "-x1--3" = .error (.danglingSign 3) := by decide +kernel
  exact ⟨star, (first_offence star).1, sign, (first_offence sign).1⟩

end Simplex
