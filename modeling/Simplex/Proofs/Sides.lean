import Simplex.Comparison
import Simplex.Proofs.Checks
import Simplex.Proofs.Grammar

/-!
Comparisons as they are read. A text without its blanks is a comparison just if it is two expressions
with a relation between them; the relation is the first of the text, and none follows it.
-/
namespace Simplex.Comparison

open Text (BeginsOutside)

/-! ### The relation -/

theorem exists_spanRelation? {cs right : List Char} {relation : Relation}
    (found : spanRelation? cs = some (relation, right)) :
    cs = relation.symbol.toList ++ right := by
  unfold spanRelation? at found
  split at found <;> cases found <;> rfl

/-- The relation at the start is the longer one where two begin there. -/
theorem spanRelation?_eq_some_iff {cs right : List Char} {relation : Relation} :
    spanRelation? cs = some (relation, right) ↔ cs = relation.symbol.toList ++ right ∧
      (relation = .lt ∨ relation = .gt → right.head? ≠ some '=') := by
  constructor
  · intro found
    refine ⟨exists_spanRelation? found, fun short equal => ?_⟩
    obtain ⟨rest, rfl⟩ : ∃ rest, right = '=' :: rest := List.head?_eq_some_iff.mp equal
    rw [exists_spanRelation? found] at found
    rcases short with rfl | rfl <;> cases found
  · rintro ⟨rfl, longest⟩
    cases relation with
    | le | eq | ge => rfl
    | lt | gt =>
      have other := longest (by simp)
      cases right with
      | nil => rfl
      | cons c rest =>
        have different : c ≠ '=' := fun same => other (congrArg some same)
        simp [Relation.symbol, spanRelation?, different]

theorem spanRelation?_eq_none_iff {cs : List Char} :
    spanRelation? cs = none ↔ BeginsOutside isRelationChar cs := by
  constructor
  · intro none
    cases cs with
    | nil => exact Text.beginsOutside_nil
    | cons c rest =>
      rw [Text.beginsOutside_cons, isRelationChar]
      by_contra first
      simp only [Bool.not_eq_false, Bool.or_eq_true, beq_iff_eq] at first
      unfold spanRelation? at none
      split at none <;> simp_all
  · intro stop
    cases cs with
    | nil => rfl
    | cons c rest =>
      have other := Text.beginsOutside_cons.mp stop
      simp only [isRelationChar, Bool.or_eq_false_iff, beq_eq_false_iff_ne] at other
      simp [spanRelation?, other]

theorem symbol_isRelationChar (relation : Relation) (right : List Char) :
    BeginsOutside (fun c => !isRelationChar c) (relation.symbol.toList ++ right) := by
  cases relation <;> exact Text.beginsOutside_cons.mpr rfl

/-- A text divides at a relation: no character of one stands before it, and it is the longer one
    where two begin. -/
structure Divides (cs left : List Char) (relation : Relation) (right : List Char) : Prop where
  joined : cs = left ++ (relation.symbol.toList ++ right)
  outside : ∀ c ∈ left, isRelationChar c = false
  longest : relation = .lt ∨ relation = .gt → right.head? ≠ some '='

/-- A text splits where it divides. -/
theorem split?_eq_some_iff_divides {cs left right : List Char} {relation : Relation} :
    split? cs = some (left, relation, right) ↔ Divides cs left relation right := by
  constructor
  · intro found
    obtain ⟨⟨relation', right'⟩, span, same⟩ := Option.map_eq_some_iff.mp found
    cases same
    obtain ⟨text, longest⟩ := spanRelation?_eq_some_iff.mp span
    refine ⟨?_, fun c member => by simpa using List.mem_takeWhile_imp member, longest⟩
    rw [← text]
    exact List.takeWhile_append_dropWhile.symm
  · rintro ⟨rfl, outside, longest⟩
    have all : ∀ c ∈ left, (!isRelationChar c) = true := fun c member => by
      rw [outside c member]; rfl
    have first := symbol_isRelationChar relation right
    rw [split?, Text.takeWhile_append all first, Text.dropWhile_append all first,
      spanRelation?_eq_some_iff.mpr ⟨rfl, longest⟩]
    rfl

theorem split?_eq_none_iff {cs : List Char} :
    split? cs = none ↔ ∀ c ∈ cs, isRelationChar c = false := by
  rw [split?, Option.map_eq_none_iff, spanRelation?_eq_none_iff]
  constructor
  · intro stop
    cases first : cs.dropWhile fun c => !isRelationChar c with
    | nil => simpa using List.dropWhile_eq_nil_iff.mp first
    | cons c rest =>
      -- what is left over begins with a character of a relation
      rw [first, Text.beginsOutside_cons] at stop
      have inside := List.dropWhile_get_zero_not (fun c => !isRelationChar c) cs (by simp [first])
      simp [first, stop] at inside
  · intro outside
    rw [List.dropWhile_eq_nil_iff.mpr fun c member => by rw [outside c member]; rfl]
    exact Text.beginsOutside_nil

/-- With no character of a relation behind it, the relation is the longer one. -/
theorem Divides.of_stop {cs left right : List Char} {relation : Relation}
    (joined : cs = left ++ (relation.symbol.toList ++ right))
    (outside : ∀ c ∈ left, isRelationChar c = false) (stop : BeginsOutside isRelationChar right) :
    Divides cs left relation right :=
  ⟨joined, outside, fun _ equal => absurd (stop '=' equal) (by decide)⟩

/-- A text divides in one way only. -/
theorem Divides.unique {cs left left' right right' : List Char} {relation relation' : Relation}
    (h : Divides cs left relation right) (h' : Divides cs left' relation' right') :
    left = left' ∧ relation = relation' ∧ right = right' := by
  have same := (split?_eq_some_iff_divides.mpr h).symm.trans (split?_eq_some_iff_divides.mpr h')
  cases same
  exact ⟨rfl, rfl, rfl⟩

/-- The sides of a text and the relation between them are determined by it. -/
theorem eq_of_joined {left left' right right' : List Char} {relation relation' : Relation}
    (same : left ++ (relation.symbol.toList ++ right) = left' ++ (relation'.symbol.toList ++ right'))
    (outside : ∀ c ∈ left, isRelationChar c = false)
    (outside' : ∀ c ∈ left', isRelationChar c = false)
    (stop : BeginsOutside isRelationChar right) (stop' : BeginsOutside isRelationChar right') :
    left = left' ∧ relation = relation' ∧ right = right' :=
  (Divides.of_stop rfl outside stop).unique (.of_stop same outside' stop')

theorem head?_any_eq_false_iff {cs : List Char} :
    cs.head?.any isRelationChar = false ↔ BeginsOutside isRelationChar cs := by
  cases cs <;> simp

/-! ### Both sides -/

theorem readSide_eq_ok_iff {side : Side} {cs : List Char} {e : Expression Float} :
    readSide side cs = .ok e ↔ Expression.read (String.ofList cs) = .ok e := by
  unfold readSide
  split
  · rename_i empty
    rw [List.isEmpty_iff.mp empty]
    exact iff_of_false (fun h => by cases h) (fun h => by cases h)
  · exact mapError_eq_ok_iff

section Reading

variable {text : String} {left right : List Char} {relation : Relation}

theorem read_of_chained (divides : Divides (Text.withoutBlanks text).toList left relation right)
    (chained : ¬ BeginsOutside isRelationChar right) :
    Comparison.read text = .error .chainedRelation := by
  rw [← head?_any_eq_false_iff, Bool.not_eq_false] at chained
  rw [Comparison.read, split?_eq_some_iff_divides.mpr divides]
  simp only [chained]
  rfl

/-- With no second relation behind the first, the left side is read before the right one. -/
theorem read_of_stop (divides : Divides (Text.withoutBlanks text).toList left relation right)
    (stop : BeginsOutside isRelationChar right) : Comparison.read text = (do
      let l ← readSide .left left
      let r ← readSide .right right
      .ok ⟨l, relation, r⟩) := by
  rw [Comparison.read, split?_eq_some_iff_divides.mpr divides]
  simp only [head?_any_eq_false_iff.mpr stop]
  rfl

end Reading

/-- The two sides of a comparison in a text without blanks. -/
structure Sides (cs : List Char) (c : Comparison Float) (left right : List Char) : Prop where
  joined : cs = left ++ (c.relation.symbol.toList ++ right)
  outside : ∀ a ∈ left, isRelationChar a = false
  stop : BeginsOutside isRelationChar right
  readLeft : Expression.read (String.ofList left) = .ok c.left
  readRight : Expression.read (String.ofList right) = .ok c.right

theorem Sides.divides {cs left right : List Char} {c : Comparison Float} (h : Sides cs c left right) :
    Divides cs left c.relation right := .of_stop h.joined h.outside h.stop

/-- A text is read as a comparison just if it has two sides, which are read as those of the
    comparison. -/
theorem read_eq_ok_iff {text : String} {c : Comparison Float} : Comparison.read text = .ok c ↔
    ∃ left right, Sides (Text.withoutBlanks text).toList c left right := by
  constructor
  · intro read
    cases found : split? (Text.withoutBlanks text).toList with
    | none =>
      rw [Comparison.read, found] at read
      cases read
    | some parts =>
      obtain ⟨left, relation, right⟩ := parts
      have divides := split?_eq_some_iff_divides.mp found
      by_cases stop : BeginsOutside isRelationChar right
      · rw [read_of_stop divides stop] at read
        obtain ⟨l, readLeft, read⟩ := bind_eq_ok_iff.mp read
        obtain ⟨r, readRight, read⟩ := bind_eq_ok_iff.mp read
        cases read
        exact ⟨left, right, divides.joined, divides.outside, stop, readSide_eq_ok_iff.mp readLeft,
          readSide_eq_ok_iff.mp readRight⟩
      · rw [read_of_chained divides stop] at read
        cases read
  · rintro ⟨left, right, sides⟩
    rw [read_of_stop sides.divides sides.stop, readSide_eq_ok_iff.mpr sides.readLeft,
      readSide_eq_ok_iff.mpr sides.readRight]
    rfl

end Simplex.Comparison
