import Simplex.Expression.Reader

/-!
Byte positions. The texts before and behind a place have the bytes up to it and from it on, so a cut
at the end of a text that begins another one never splits a character.
-/
namespace Simplex

namespace Expression

theorem byteLength_append (cs ds : List Char) :
    byteLength (cs ++ ds) = byteLength cs + byteLength ds := by
  induction cs with
  | nil => simp [byteLength]
  | cons c rest ih =>
    show c.utf8Size + byteLength (rest ++ ds) = c.utf8Size + byteLength rest + byteLength ds
    omega

theorem byteLength_eq_zero_iff {cs : List Char} : byteLength cs = 0 ↔ cs = [] := by
  cases cs with
  | nil => exact iff_of_true rfl rfl
  | cons c rest =>
    have positive := c.utf8Size_pos
    have whole : byteLength (c :: rest) = c.utf8Size + byteLength rest := rfl
    exact iff_of_false (by omega) (List.cons_ne_nil c rest)

theorem byteLength_le_of_isPrefix {cs ds : List Char} (begins : cs <+: ds) :
    byteLength cs ≤ byteLength ds := by
  obtain ⟨rest, rfl⟩ := begins
  rw [byteLength_append]
  exact Nat.le_add_right _ _

/-- A text takes as many bytes as its characters. -/
theorem utf8ByteSize_ofList (cs : List Char) : (String.ofList cs).utf8ByteSize = byteLength cs := by
  induction cs with
  | nil => simp [byteLength]
  | cons c rest ih =>
    rw [String.ofList_cons, String.utf8ByteSize_append, String.utf8ByteSize_singleton, ih]
    rfl

theorem isEmpty_ofList (cs : List Char) : (String.ofList cs).isEmpty = cs.isEmpty := by
  rw [Bool.eq_iff_iff, String.isEmpty_iff, List.isEmpty_iff, String.ofList_eq_empty_iff]

end Expression

namespace Text

open Expression (byteLength utf8ByteSize_ofList)

/-- The characters between two bytes of a text; nothing if the bytes are out of order or a character
    is split at one of them. -/
def slice? (text : String) (start stop : Nat) : Option String :=
  if h : String.Pos.Raw.IsValid text ⟨start⟩ ∧ String.Pos.Raw.IsValid text ⟨stop⟩ ∧ start ≤ stop then
    some (text.extract ⟨⟨start⟩, h.1⟩ ⟨⟨stop⟩, h.2.1⟩)
  else none

/-- A part of a text lies between the bytes where the text before it ends and where it ends itself. -/
theorem slice?_append (before part after : String) :
    slice? (before ++ part ++ after) before.utf8ByteSize (before ++ part).utf8ByteSize = some part := by
  have first : String.Pos.Raw.IsValid (before ++ part ++ after) ⟨before.utf8ByteSize⟩ :=
    String.Pos.Raw.isValid_iff_exists_append.mpr ⟨before, part ++ after, by rw [String.append_assoc], rfl⟩
  have last : String.Pos.Raw.IsValid (before ++ part ++ after) ⟨(before ++ part).utf8ByteSize⟩ :=
    String.Pos.Raw.isValid_iff_exists_append.mpr ⟨before ++ part, after, rfl, rfl⟩
  have order : before.utf8ByteSize ≤ (before ++ part).utf8ByteSize := by
    rw [String.utf8ByteSize_append]
    exact Nat.le_add_right _ _
  rw [slice?, dif_pos ⟨first, last, order⟩, Option.some.injEq, ← String.toByteArray_inj]
  calc
    _ = (before.toByteArray ++ (part.toByteArray ++ after.toByteArray)).extract
          (before.toByteArray.size + 0) (before.toByteArray.size + part.toByteArray.size) := by
      simp [ByteArray.append_assoc]
    _ = (part.toByteArray ++ after.toByteArray).extract 0 part.toByteArray.size :=
      ByteArray.extract_append_size_add
    _ = part.toByteArray := ByteArray.extract_append_eq_left rfl

/-- A character of two bytes is not cut between them. -/
example : slice? "2é" 1 2 = none := by decide

theorem slice?_ofList (cs ds es : List Char) :
    slice? (String.ofList (cs ++ (ds ++ es))) (byteLength cs) (byteLength (cs ++ ds)) =
      some (String.ofList ds) := by
  have sliced := slice?_append (String.ofList cs) (String.ofList ds) (String.ofList es)
  rw [← String.ofList_append, ← String.ofList_append, List.append_assoc, utf8ByteSize_ofList,
    utf8ByteSize_ofList] at sliced
  exact sliced

end Text

end Simplex
