import Simplex.Proofs.Offences
import Simplex.Proofs.Sides

/-!
Reading by byte positions. A scanner keeps the text and the position of a byte in it, and takes
literals, names and the sides of a comparison as slices between such positions; a slice that split a
character would be none. No slice does, and the scanner reads what the reader of characters reads.
-/
namespace Simplex

open Expression (byteLength byteLength_append)
open Text (isNameChar)

namespace Expression

/-! ### Expressions -/

/-- The beginning of a term, with the literal taken from the source. -/
def Lead.scan? (source : String) (position : Nat) : Lead → Option Lead
  | literal cs =>
    (Text.slice? source position (position + byteLength cs)).map fun part => literal part.toList
  | sign c => some (sign c)
  | absent => some absent

/-- Ends a term that was scanned from one position to another; nothing may have been taken, or a sign
    alone, or the text may go on. -/
def Lead.finish (lead : Lead) (coefficient : Float) (name : String) (position stop : Nat)
    (rest : List Char) : Except Issue (Term Float × Nat × List Char) :=
  if stop = position then .error (unexpected stop rest)
  else if lead.isBareSign && name.isEmpty then
    .error (if endsTerm rest then .danglingSign position else unexpected stop rest)
  else if endsTerm rest then .ok ({ coefficient, name }, stop, rest)
  else .error (unexpected stop rest)

/-- Reads the term at a position of the source, where the characters stand. -/
def scanTerm? (source : String) (position : Nat) (cs : List Char) :
    Option (Except Issue (Term Float × Nat × List Char)) := do
  let (begun, afterLead) := Lead.span cs
  let middle := position + byteLength begun.chars
  let stop := middle + byteLength (afterLead.takeWhile isNameChar)
  let lead ← begun.scan? source position
  match lead.coefficient with
  | .error issue => some (.error issue)
  | .ok coefficient =>
    (Text.slice? source middle stop).map fun name =>
      lead.finish coefficient name position stop (afterLead.dropWhile isNameChar)

theorem Lead.finish_eq_ok {lead : Lead} {coefficient : Float} {name : String}
    {position stop stop' : Nat} {rest rest' : List Char} {t : Term Float}
    (h : lead.finish coefficient name position stop rest = .ok (t, stop', rest')) :
    stop ≠ position ∧ rest' = rest := by
  unfold Lead.finish at h
  split at h
  · cases h
  · rename_i moved
    split at h
    · cases h
    · split at h <;> cases h
      exact ⟨moved, rfl⟩

/-- A term that is scanned takes up at least one character. -/
theorem scanTerm?_length_lt {source : String} {position stop : Nat} {cs rest : List Char}
    {t : Term Float} (h : scanTerm? source position cs = some (.ok (t, stop, rest))) :
    rest.length < cs.length := by
  cases span : Lead.span cs with
  | mk begun after =>
    have text := congrArg List.length (span_text span)
    simp only [scanTerm?, span, Option.bind_eq_bind, Option.bind_eq_some_iff] at h
    obtain ⟨lead, _, h⟩ := h
    split at h
    · cases h
    · obtain ⟨name, _, h⟩ := Option.map_eq_some_iff.mp h
      obtain ⟨moved, rfl⟩ := Lead.finish_eq_ok h
      -- the position moves by the bytes that were taken
      rw [Nat.add_assoc, ← byteLength_append, ne_eq, Nat.add_eq_left, byteLength_eq_zero_iff,
        ← List.length_eq_zero_iff] at moved
      rw [List.length_append] at text
      omega

/-- Reads the terms from a position of the source to its end. -/
def scanTerms? (source : String) (position : Nat) (cs : List Char) :
    Option (Except Issue (Expression Float)) :=
  if cs.isEmpty then some (.ok [])
  else
    match h : scanTerm? source position cs with
    | none => none
    | some (.error issue) => some (.error issue)
    | some (.ok (t, stop, rest)) =>
      have := scanTerm?_length_lt h
      (scanTerms? source stop rest).map fun later => later.map (t :: ·)
termination_by cs.length

/-- Reads a whole text without blanks as an expression; nothing if a slice splits a character. -/
def scan? (text : String) : Option (Except Issue (Expression Float)) :=
  if text.isEmpty then some (.error .empty) else scanTerms? text 0 text.toList

theorem Lead.scan?_eq (lead : Lead) (before rest : List Char) :
    lead.scan? (String.ofList (before ++ (lead.chars ++ rest))) (byteLength before) = some lead := by
  cases lead with
  | literal cs =>
    have sliced := Text.slice?_ofList before cs rest
    rw [byteLength_append] at sliced
    rw [Lead.scan?, Lead.chars, sliced, Option.map_some, String.toList_ofList]
  | sign | absent => rfl

theorem readTerm_eq_finish {position : Nat} {cs after : List Char} {lead : Lead} {x : Float}
    (span : Lead.span cs = (lead, after)) (coefficient : lead.coefficient = .ok x) :
    readTerm position cs = lead.finish x (String.ofList (after.takeWhile isNameChar)) position
      (position + byteLength (lead.chars ++ after.takeWhile isNameChar))
      (after.dropWhile isNameChar) := by
  have moved : (lead.chars ++ after.takeWhile isNameChar).isEmpty = true ↔
      position + byteLength (lead.chars ++ after.takeWhile isNameChar) = position := by
    rw [Nat.add_eq_left, byteLength_eq_zero_iff, List.isEmpty_iff]
  simp only [readTerm, Lead.finish, span, coefficient, bind, Except.bind, pure, Except.pure, throw,
    throwThe, MonadExceptOf.throw, moved, isEmpty_ofList]
  cases endsTerm (after.dropWhile isNameChar) <;> simp

/-- The slices of a term are its literal and its name. -/
theorem scanTerm?_eq (before cs : List Char) :
    scanTerm? (String.ofList (before ++ cs)) (byteLength before) cs =
      some (readTerm (byteLength before) cs) := by
  cases span : Lead.span cs with
  | mk lead after =>
    have text := span_text span
    have literal := lead.scan?_eq before (after.takeWhile isNameChar ++ after.dropWhile isNameChar)
    rw [← List.append_assoc lead.chars, ← text] at literal
    have name := Text.slice?_ofList (before ++ lead.chars) (after.takeWhile isNameChar)
      (after.dropWhile isNameChar)
    rw [List.append_assoc before, ← List.append_assoc lead.chars, ← text, byteLength_append,
      byteLength_append, byteLength_append] at name
    simp only [scanTerm?, span, literal, Option.bind_eq_bind, Option.bind_some]
    obtain ⟨x, coefficient⟩ := exists_coefficient span
    rw [readTerm_eq_finish span coefficient, byteLength_append, ← Nat.add_assoc]
    simp only [coefficient, name, Option.map_some]

/-- The scanner goes on behind each term at the byte where the next one begins. -/
theorem scanTerms?_eq (before cs : List Char) :
    scanTerms? (String.ofList (before ++ cs)) (byteLength before) cs =
      some (readTerms (byteLength before) cs) := by
  generalize same : byteLength before = position
  induction position, cs using readTerms.induct generalizing before with
  | case1 position cs empty => rw [scanTerms?, readTerms, if_pos empty, if_pos empty]
  | case2 position cs nonempty issue failed =>
    subst same
    have scanned := scanTerm?_eq before cs
    rw [failed] at scanned
    rw [scanTerms?, readTerms, if_neg nonempty, if_neg nonempty]
    split <;> rename_i found <;> cases scanned.symm.trans found
    split <;> rename_i read <;> cases failed.symm.trans read
    rfl
  | case3 position cs nonempty t stop rest first shorter ih =>
    subst same
    have scanned := scanTerm?_eq before cs
    rw [first] at scanned
    obtain ⟨chunk, text, _, _, moved⟩ := exists_chunk_stop first
    -- the next term begins where the text up to the end of this one ends
    have later := ih (before ++ chunk.chars) (by rw [byteLength_append, moved])
    rw [List.append_assoc, ← text] at later
    rw [scanTerms?, readTerms, if_neg nonempty, if_neg nonempty]
    split <;> rename_i found <;> cases scanned.symm.trans found
    split <;> rename_i read <;> cases first.symm.trans read
    rw [later, Option.map_some]

theorem scan?_eq (text : String) : scan? text = some (Expression.read text) := by
  have scanned := scanTerms?_eq [] text.toList
  rw [List.nil_append, String.ofList_toList] at scanned
  unfold scan? Expression.read
  split
  · rfl
  · exact scanned

end Expression

namespace Comparison

open Text (BeginsOutside)

/-! ### Comparisons -/

/-- The first character of a relation and the position where it stands. -/
def relationAt? (position : Nat) : List Char → Option (Nat × Char)
  | [] => none
  | c :: rest =>
    if isRelationChar c then some (position, c) else relationAt? (position + c.utf8Size) rest

/-- The relation that a character begins, with an equals sign behind it or not, and its bytes. -/
def relationOf : Char → Bool → Relation × Nat
  | '<', true => (.le, 2)
  | '>', true => (.ge, 2)
  | '<', false => (.lt, 1)
  | '>', false => (.gt, 1)
  | _, _ => (.eq, 1)

/-- Splits the source at the first relation; nothing if a slice splits a character. -/
def scanSplit? (source : String) : Option (Option (String × Relation × String)) :=
  match relationAt? 0 source.toList with
  | none => some none
  | some (index, c) => do
    let behind ← Text.slice? source (index + 1) source.utf8ByteSize
    let (relation, width) := relationOf c (behind.toList.head? == some '=')
    let left ← Text.slice? source 0 index
    let right ← Text.slice? source (index + width) source.utf8ByteSize
    some (some (left, relation, right))

/-- Reads a side from its slice. -/
def scanSide? (side : Side) (source : String) : Option (Except Issue (Expression Float)) :=
  if source.isEmpty then some (.error (.emptySide side))
  else (Expression.scan? source).map fun read => read.mapError (.invalidSide side)

/-- Reads a comparison, blanks left out; nothing if a slice splits a character. -/
def scan? (text : String) : Option (Except Issue (Comparison Float)) := do
  match ← scanSplit? (Text.withoutBlanks text) with
  | none => some (.error .missingRelation)
  | some (left, relation, right) =>
    if left.toList.head?.any isRelationChar || right.toList.head?.any isRelationChar then
      some (.error .chainedRelation)
    else
      match ← scanSide? .left left with
      | .error issue => some (.error issue)
      | .ok left => (scanSide? .right right).map fun read => read.map fun right =>
          ⟨left, relation, right⟩

theorem relationAt?_of_outside {cs : List Char} (outside : ∀ c ∈ cs, isRelationChar c = false)
    (position : Nat) : relationAt? position cs = none := by
  induction cs generalizing position with
  | nil => rfl
  | cons c rest ih =>
    rw [relationAt?, outside c List.mem_cons_self, if_neg Bool.false_ne_true]
    exact ih (fun d member => outside d (List.mem_cons_of_mem c member)) _

theorem relationAt?_append {left : List Char} (outside : ∀ c ∈ left, isRelationChar c = false)
    {c : Char} (first : isRelationChar c = true) (rest : List Char) (position : Nat) :
    relationAt? position (left ++ c :: rest) = some (position + byteLength left, c) := by
  induction left generalizing position with
  | nil => simp [relationAt?, first, byteLength]
  | cons d left ih =>
    rw [List.cons_append, relationAt?, outside d List.mem_cons_self, if_neg Bool.false_ne_true,
      ih (fun e member => outside e (List.mem_cons_of_mem d member)), Nat.add_assoc]
    rfl

/-- Where a text divides, the first character and the one behind it determine the relation. -/
theorem Divides.exists_first {cs left right : List Char} {relation : Relation}
    (h : Divides cs left relation right) : ∃ c rest, relation.symbol.toList ++ right = c :: rest ∧
      isRelationChar c = true ∧ c.utf8Size = 1 ∧
      relationOf c (rest.head? == some '=') = (relation, byteLength relation.symbol.toList) := by
  cases relation with
  | le | ge => exact ⟨_, _, rfl, rfl, rfl, rfl⟩
  | eq =>
    refine ⟨'=', right, rfl, rfl, rfl, ?_⟩
    cases right.head? == some '=' <;> rfl
  | lt | gt =>
    refine ⟨_, right, rfl, rfl, rfl, ?_⟩
    rw [beq_eq_false_iff_ne.mpr (h.longest (by simp))]
    rfl

/-- The slices of a comparison are its sides. -/
theorem scanSplit?_eq (cs : List Char) : scanSplit? (String.ofList cs) =
    some ((split? cs).map fun (left, relation, right) =>
      (String.ofList left, relation, String.ofList right)) := by
  cases found : split? cs with
  | none =>
    rw [scanSplit?, String.toList_ofList, relationAt?_of_outside (split?_eq_none_iff.mp found)]
    rfl
  | some parts =>
    obtain ⟨left, relation, right⟩ := parts
    have divides := split?_eq_some_iff_divides.mp found
    obtain ⟨c, rest, text, first, one, relationOf⟩ := divides.exists_first
    have whole := divides.joined
    have index : relationAt? 0 cs = some (byteLength left, c) := by
      rw [whole, text, relationAt?_append divides.outside first, Nat.zero_add]
    have behind : Text.slice? (String.ofList cs) (byteLength left + 1) (byteLength cs) =
        some (String.ofList rest) := by
      have sliced := Text.slice?_ofList (left ++ [c]) rest []
      rwa [List.append_nil, List.append_assoc, List.singleton_append, ← text, ← whole,
        byteLength_append, show byteLength [c] = 1 from one] at sliced
    have before : Text.slice? (String.ofList cs) 0 (byteLength left) = some (String.ofList left) := by
      have sliced := Text.slice?_ofList [] left (c :: rest)
      rwa [List.nil_append, List.nil_append, ← text, ← whole] at sliced
    have after : Text.slice? (String.ofList cs)
        (byteLength left + byteLength relation.symbol.toList) (byteLength cs) =
        some (String.ofList right) := by
      have sliced := Text.slice?_ofList (left ++ relation.symbol.toList) right []
      rwa [List.append_nil, List.append_assoc, ← whole, byteLength_append] at sliced
    simp only [scanSplit?, String.toList_ofList, index, Expression.utf8ByteSize_ofList, behind,
      relationOf, before, after, Option.bind_eq_bind, Option.bind_some, Option.map_some]

theorem scanSide?_eq (side : Side) (cs : List Char) :
    scanSide? side (String.ofList cs) = some (readSide side cs) := by
  unfold scanSide? readSide
  rw [Expression.isEmpty_ofList, Expression.scan?_eq]
  split <;> rfl

/-- No slice splits a character, and the sides are read as they stand in the text. -/
theorem scan?_eq (text : String) : scan? text = some (Comparison.read text) := by
  have split := scanSplit?_eq (Text.withoutBlanks text).toList
  rw [String.ofList_toList] at split
  unfold scan? Comparison.read
  cases found : split? (Text.withoutBlanks text).toList with
  | none => rw [split, found]; rfl
  | some parts =>
    obtain ⟨left, relation, right⟩ := parts
    have outside := (split?_eq_some_iff_divides.mp found).outside
    have first := head?_any_eq_false_iff.mpr (Text.beginsOutside_of_all outside)
    simp only [split, found, Option.map_some, Option.bind_eq_bind, Option.bind_some,
      String.toList_ofList, first, Bool.false_or, scanSide?_eq]
    split
    · rfl
    · cases readSide .left left with
      | error issue => rfl
      | ok l => cases readSide .right right <;> rfl

end Comparison

end Simplex
