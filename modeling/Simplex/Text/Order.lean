/-!
The order of names: by their bytes in UTF-8, first difference first. Sorted lists of names have no
name twice.
-/
namespace Simplex.Text

/-- The bytes of a text in UTF-8. -/
def bytes (text : String) : List UInt8 := text.toByteArray.data.toList

theorem bytes_inj {a b : String} : bytes a = bytes b ↔ a = b := by
  constructor
  · intro h
    apply String.toByteArray_inj.mp
    cases ha : a.toByteArray
    cases hb : b.toByteArray
    simp only [bytes, ha, hb] at h
    exact congrArg ByteArray.mk (Array.toList_inj.mp h)
  · rintro rfl; rfl

/-- The first text comes before the second. -/
def Precedes (a b : String) : Prop := bytes a < bytes b

instance : DecidableRel Precedes := fun a b => inferInstanceAs (Decidable (bytes a < bytes b))

theorem precedes_irrefl (a : String) : ¬ Precedes a a := List.lt_irrefl _

theorem Precedes.trans {a b c : String} (h : Precedes a b) (k : Precedes b c) : Precedes a c :=
  List.lt_trans h k

/-- Of two different texts one comes before the other. -/
theorem precedes_of_not {a b : String} (ne : a ≠ b) (h : ¬ Precedes a b) : Precedes b a := by
  rcases List.le_iff_lt_or_eq.mp (List.not_lt.mp h) with lt | eq
  · exact lt
  · exact absurd (bytes_inj.mp eq).symm ne

/-- Names in ascending order. -/
def Ascending (names : List String) : Prop := names.Pairwise Precedes

/-- Puts a name at its place, unless it is there already. -/
def insertName (name : String) : List String → List String
  | [] => [name]
  | n :: rest =>
    if name = n then n :: rest
    else if Precedes name n then name :: n :: rest
    else n :: insertName name rest

theorem mem_insertName {name m : String} {names : List String} :
    m ∈ insertName name names ↔ m = name ∨ m ∈ names := by
  induction names with
  | nil => simp [insertName]
  | cons n rest ih =>
    unfold insertName
    split
    · rename_i same; simp [same]
    · split
      · simp
      · simp only [List.mem_cons, ih]
        constructor
        · rintro (h | h | h) <;> simp [h]
        · rintro (h | h | h) <;> simp [h]

theorem ascending_insertName {name : String} {names : List String} (h : Ascending names) :
    Ascending (insertName name names) := by
  induction names with
  | nil => exact List.pairwise_singleton _ _
  | cons n rest ih =>
    obtain ⟨first, later⟩ := List.pairwise_cons.mp h
    unfold insertName
    split
    · exact h
    · rename_i ne
      split
      · rename_i before
        refine List.pairwise_cons.mpr ⟨?_, h⟩
        intro m member
        rcases List.mem_cons.mp member with rfl | member
        · exact before
        · exact before.trans (first m member)
      · rename_i after
        refine List.pairwise_cons.mpr ⟨?_, ih later⟩
        intro m member
        rcases mem_insertName.mp member with rfl | member
        · exact precedes_of_not ne after
        · exact first m member

/-- The distinct names of a list in ascending order. -/
def sortNames (names : List String) : List String := names.foldr insertName []

theorem mem_sortNames {m : String} {names : List String} : m ∈ sortNames names ↔ m ∈ names := by
  induction names with
  | nil => rfl
  | cons n rest ih =>
    rw [show sortNames (n :: rest) = insertName n (sortNames rest) from rfl, mem_insertName, ih,
      List.mem_cons]

theorem ascending_sortNames (names : List String) : Ascending (sortNames names) := by
  induction names with
  | nil => exact List.Pairwise.nil
  | cons n rest ih => exact ascending_insertName ih

end Simplex.Text
