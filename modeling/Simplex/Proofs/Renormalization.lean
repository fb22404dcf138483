import Simplex.Draft
import Simplex.Proofs.Legibility
import Simplex.Proofs.Merging
import Simplex.Proofs.Sides
import Simplex.Proofs.Underflow

/-!
Normal forms and their texts. Normalizing leaves distinct names that texts can have, no zeros on the
left and no negative zero on the right. Such a constraint is read back from its own text just if no
name on the left blends with the magnitude before it: then normalizing again changes nothing.
-/
namespace Simplex

open Decimal (Literal signChars)
open Text (BeginsOutside isNameChar isBlank)

variable {text : String}

/-! ### Terms that were read -/

namespace Term

/-- The name is one of a text, and the sign of the coefficient is kept apart only where it is
    undefined. -/
structure Textual (t : Term Float) : Prop where
  letters : ∀ c ∈ t.name.toList, isNameChar c = true
  plain : BeginsOutside Char.isDigit t.name.toList
  flagged : t.minusUndefined = true → Scalar.isUndefined t.coefficient = true

variable {s t : Term Float}

theorem Textual.negated (h : t.Textual) : t.negated.Textual where
  letters := h.letters
  plain := h.plain
  flagged flag := by
    rw [Term.negated, Bool.and_eq_true, Double.isUndefined_iff] at flag
    show Scalar.isUndefined (-t.coefficient) = true
    rw [Double.isUndefined_iff, Double.shape_neg, flag.1]
    rfl

theorem Textual.add (h : s.Textual) (t : Term Float) : (s.add t).Textual where
  letters := h.letters
  plain := h.plain
  flagged flag := by
    show Scalar.isUndefined (s.coefficient + t.coefficient) = true
    unfold Term.add at flag
    by_contra defined
    simp [defined] at flag

theorem Textual.writable (h : t.Textual) (finite : t.coefficient.isFinite = true) : t.Writable where
  finite := finite
  defined := by
    by_contra flag
    have undefined := h.flagged (by simpa using flag)
    rw [Double.isUndefined_iff] at undefined
    rw [Double.isFinite_eq, undefined] at finite
    cases finite
  letters := h.letters
  plain := h.plain

end Term

namespace Expression

theorem textual_of_read {e : Expression Float} (read : Expression.read text = .ok e) :
    ∀ t ∈ e, t.Textual := by
  obtain ⟨chunks, splits, rfl⟩ := read_iff.mp read
  intro t member
  obtain ⟨c, own, rfl⟩ := List.mem_map.mp member
  obtain ⟨before, after, split⟩ := List.append_of_mem own
  have longest := splits.longest before c after split
  rw [List.flatMap_cons] at longest
  have name : c.term.name.toList = c.name := String.toList_ofList
  exact ⟨name ▸ c.name_all, name ▸ Chunk.name_plain longest, fun flag => by cases flag⟩

end Expression

/-! ### What normalizing leaves -/

/-- The terms can be written and have distinct names, none of them is zero, and the right side is not
    a negative zero. -/
structure Constraint.Normal (c : Constraint Float) : Prop where
  writable : ∀ t ∈ c.lhs, t.Writable
  named : ∀ t ∈ c.lhs, t.isConstant = false
  distinct : (c.lhs.map Term.name).Nodup
  nonzero : ∀ t ∈ c.lhs, (t.coefficient == 0) = false
  finite : c.rhs.isFinite = true
  plus : Double.shape c.rhs ≠ .zero .negative

/-- All numbers of a constraint are finite. -/
structure Constraint.Finite (c : Constraint Float) : Prop where
  lhs : ∀ t ∈ c.lhs, t.coefficient.isFinite = true
  rhs : c.rhs.isFinite = true

theorem Comparison.normal_normalize {d : Comparison Float} (left : ∀ t ∈ d.left, t.Textual)
    (right : ∀ t ∈ d.right, t.Textual) (finite : d.normalize.Finite) : d.normalize.Normal where
  writable t member := by
    refine Term.Textual.writable (Expression.forall_merge (P := Term.Textual)
      (fun s t own _ _ => own.add t) ?_ t member) (finite.lhs t member)
    intro t member
    rcases List.mem_append.mp member with own | negated
    · exact left t (List.mem_filter.mp own).1
    · obtain ⟨u, own, rfl⟩ := List.mem_map.mp negated
      exact (right u (List.mem_filter.mp own).1).negated
  named t member := by
    have named := (Expression.merged_normalize d).named t member
    simpa [Term.isConstant] using named
  distinct := (Expression.merged_normalize d).distinct
  nonzero := (Expression.merged_normalize d).nonzero
  finite := finite.rhs
  plus zero := Double.shape_accumulate_ne _ (Double.shape_of_sub_negative_zero zero)

theorem readConstraint_eq_ok_iff {c : Constraint Float} : readConstraint text = .ok c ↔
    ∃ d, Comparison.read text = .ok d ∧ d.normalize = c := by
  simp only [readConstraint, readComparison, map_eq_ok_iff, mapError_eq_ok_iff]

theorem normal_of_readConstraint {c : Constraint Float} (read : readConstraint text = .ok c)
    (finite : c.Finite) : c.Normal := by
  obtain ⟨d, comparison, rfl⟩ := readConstraint_eq_ok_iff.mp read
  obtain ⟨_, _, sides⟩ := Comparison.read_eq_ok_iff.mp comparison
  exact Comparison.normal_normalize (Expression.textual_of_read sides.readLeft)
    (Expression.textual_of_read sides.readRight) finite

/-! ### The text of a constraint -/

/-- The characters of a finite double are a literal for it, behind a minus if it has one. -/
theorem Decimal.exists_literal_text {x : Float} (finite : x.isFinite = true) :
    ∃ l : Literal, l.exponent = none ∧ l.chars = (Decimal.text x).toList ∧ l.value = x := by
  let s : Option Decimal.Sign := if Binary64.isNegative x then some .minus else none
  have signed : s = some .minus ↔ Binary64.isNegative x = true := by
    cases negative : Binary64.isNegative x <;> simp [s, negative]
  have sign : signChars s = Decimal.signOf x := by
    cases negative : Binary64.isNegative x <;> simp [s, negative, Decimal.signOf] <;> rfl
  obtain ⟨whole, fraction, chars, value⟩ := Decimal.exists_signed_literal finite rfl signed
  refine ⟨⟨s, whole, fraction, none⟩, rfl, ?_, value⟩
  rw [Decimal.text, String.toList_ofList, ← sign, ← chars]
  simp [Literal.chars, Decimal.exponentChars]

namespace Expression

theorem literal_written {l : Literal} (plain : l.exponent = none) :
    ∀ c ∈ l.chars, isWritten c = true := by
  intro c member
  rw [Literal.chars, plain, Decimal.exponentChars, Option.elim_none, List.append_nil,
    List.mem_append] at member
  rcases member with sign | magnitude
  · exact signChars_written _ c sign
  · exact magnitude_written _ _ c magnitude

theorem read_literal (l : Literal) :
    Expression.read (String.ofList l.chars) = .ok [{ coefficient := l.value, name := "" }] := by
  have whole : l.chars = (Chunk.number l none).chars ++ [] := by
    simp [Chunk.chars, Chunk.lead, Lead.chars, Chunk.name]
  have longest : l.Longest l.chars := ⟨List.prefix_refl _, fun _ begins => begins.length_le⟩
  rw [read_iff, String.toList_ofList]
  exact ⟨[.number l none], splits_iff.mpr ⟨.cons whole longest rfl .nil, List.cons_ne_nil _ _⟩, rfl⟩

/-- A finite double is read back from its text. -/
theorem read_decimal {x : Float} (finite : x.isFinite = true) :
    Expression.read (Decimal.text x) = .ok [{ coefficient := x, name := "" }] := by
  obtain ⟨l, _, chars, value⟩ := Decimal.exists_literal_text finite
  rw [← String.ofList_toList (s := Decimal.text x), ← chars, read_literal, value]

end Expression

theorem Comparison.not_isRelationChar_of_isWritten {a : Char}
    (written : Expression.isWritten a = true) : isRelationChar a = false := by
  by_contra found
  simp only [isRelationChar, Bool.not_eq_false, Bool.or_eq_true, beq_iff_eq] at found
  rcases found with (rfl | rfl) | rfl <;> exact absurd written (by decide)

namespace Constraint.Normal

variable {c : Constraint Float}

theorem decimal_written (normal : c.Normal) :
    ∀ a ∈ (Decimal.text c.rhs).toList, Expression.isWritten a = true := by
  obtain ⟨l, plain, chars, _⟩ := Decimal.exists_literal_text normal.finite
  exact chars ▸ Expression.literal_written plain

theorem withoutBlanks_text (normal : c.Normal) : (Text.withoutBlanks c.text).toList =
    Expression.compact c.lhs ++ (c.relation.symbol.toList ++ (Decimal.text c.rhs).toList) := by
  have blank : " ".toList.filter (fun a => !isBlank a) = [] := by decide
  have symbol : c.relation.symbol.toList.filter (fun a => !isBlank a) = c.relation.symbol.toList := by
    cases c.relation <;> decide
  rw [Text.withoutBlanks, String.toList_ofList, Constraint.text, Expression.text]
  simp only [String.toList_append, String.toList_ofList, List.filter_append, blank, symbol,
    Expression.filter_chars normal.writable, Expression.filter_written normal.decimal_written,
    List.nil_append, List.append_assoc]

/-- The text of a constraint is a comparison of its left side, as it is read, with its right side. -/
theorem read_text_iff (normal : c.Normal) {d : Comparison Float} :
    Comparison.read c.text = .ok d ↔
      Expression.read (String.ofList (Expression.compact c.lhs)) = .ok d.left ∧
        d.relation = c.relation ∧ d.right = [{ coefficient := c.rhs, name := "" }] := by
  have outside : ∀ a ∈ Expression.compact c.lhs, Comparison.isRelationChar a = false :=
    fun a member => Comparison.not_isRelationChar_of_isWritten
      (Expression.compact_written normal.writable a member)
  have stop : BeginsOutside Comparison.isRelationChar (Decimal.text c.rhs).toList :=
    fun a first => Comparison.not_isRelationChar_of_isWritten
      (normal.decimal_written a (List.mem_of_mem_head? first))
  have number := Expression.read_decimal normal.finite
  rw [Comparison.read_eq_ok_iff, normal.withoutBlanks_text]
  constructor
  · rintro ⟨l, r, joined, outside', stop', left, right⟩
    obtain ⟨rfl, relation, rfl⟩ := Comparison.eq_of_joined joined outside outside' stop stop'
    rw [String.ofList_toList, number] at right
    exact ⟨left, relation.symm, (Except.ok.inj right).symm⟩
  · rintro ⟨left, relation, right⟩
    refine ⟨_, _, ?_, outside, stop, left, ?_⟩
    · rw [relation]
    · rw [String.ofList_toList, number, right]

/-- A left side of the same terms, with nothing else on it but zero, gives the constraint again. -/
theorem normalize_eq (normal : c.Normal) {terms : Expression Float}
    (named : terms.variableTerms = c.lhs) (zero : terms.constant = 0) :
    Comparison.normalize ⟨terms, c.relation, [{ coefficient := c.rhs, name := "" }]⟩ = c := by
  have merged := Expression.merge_of_nodup normal.distinct normal.nonzero
  have right : (0 + c.rhs) - 0 = c.rhs := by rw [Double.zero_add normal.plus, Double.sub_zero]
  obtain ⟨lhs, relation, rhs⟩ := c
  rw [Comparison.normalize, named, zero]
  show Constraint.mk (Expression.merge (lhs ++ [])) relation ((0 + rhs) - 0) = _
  rw [right, List.append_nil, merged]

end Constraint.Normal

/-- An empty left side is written as zero. -/
theorem Expression.read_compact_nil : Expression.read (String.ofList (compact [])) =
    .ok [{ coefficient := 0, name := "" }] := by
  decide +kernel

namespace Constraint.Normal

variable {c : Constraint Float}

/-- The left side is read as terms that give it again, unless a name blends. -/
theorem exists_terms (normal : c.Normal) (clear : c.lhs.legible = true) :
    ∃ terms, Expression.read (String.ofList (Expression.compact c.lhs)) = .ok terms ∧
      terms.variableTerms = c.lhs ∧ terms.constant = 0 := by
  cases lhs : c.lhs with
  | nil =>
    refine ⟨_, Expression.read_compact_nil, rfl, ?_⟩
    exact Double.zero_add (by simp)
  | cons t later =>
    have nonempty : c.lhs ≠ [] := by simp [lhs]
    have allNamed : c.lhs.variableTerms = c.lhs := by
      rw [Expression.variableTerms, List.filter_eq_self]
      intro u member
      rw [normal.named u member]
      rfl
    have constants : c.lhs.filter Term.isConstant = [] := by
      rw [List.filter_eq_nil_iff]
      intro u member
      simp [normal.named u member]
    have zero : c.lhs.constant = 0 := by rw [Expression.constant, constants]; rfl
    rw [← lhs]
    exact ⟨c.lhs, Expression.read_compact nonempty normal.writable clear, allNamed, zero⟩

/-- A constraint in normal form is read back from its text just if its left side is legible. -/
theorem readConstraint_iff (normal : c.Normal) :
    readConstraint c.text = .ok c ↔ c.lhs.legible = true := by
  rw [readConstraint_eq_ok_iff]
  constructor
  · rintro ⟨d, comparison, rfl⟩
    obtain ⟨left, _, right⟩ := normal.read_text_iff.mp comparison
    refine Expression.legible_of_read normal.writable left ?_
    have names := Expression.names_merge_sublist
      (d.left.variableTerms ++ d.right.variableTerms.map Term.negated)
    have none : d.right.variableTerms = [] := by rw [right]; rfl
    refine names.trans ?_
    rw [none, List.map_nil, List.append_nil]
    exact List.filter_sublist.map Term.name
  · intro clear
    obtain ⟨terms, read, named, zero⟩ := normal.exists_terms clear
    exact ⟨_, normal.read_text_iff.mpr ⟨read, rfl, rfl⟩, normal.normalize_eq named zero⟩

end Constraint.Normal

/-- A constraint that was read and normalized, with finite numbers only, is read back from its own
    text and normalized to itself just if no name on its left side blends with the magnitude before
    it. -/
theorem readConstraint_text_iff {c : Constraint Float} (read : readConstraint text = .ok c)
    (finite : c.Finite) : readConstraint c.text = .ok c ↔ c.lhs.legible = true :=
  (normal_of_readConstraint read finite).readConstraint_iff

/-- With nothing behind it, the name `e` does not blend with its coefficient. -/
theorem loneLetter_text_iff :
    ∃ c, readConstraint "x + e + e <= 3" = .ok c ∧ c.Finite ∧
      (readConstraint c.text = .ok c ↔ c.lhs.legible = true) ∧ c.text = "x + 2e <= 3" := by
  have read : readConstraint "x + e + e <= 3" = .ok ⟨[{ coefficient := 1, name := "x" },
      { coefficient := 2, name := "e" }], .le, 3⟩ := by decide +kernel
  have finite : Constraint.Finite ⟨[{ coefficient := 1, name := "x" },
      { coefficient := 2, name := "e" }], .le, 3⟩ := ⟨by decide +kernel, by decide +kernel⟩
  exact ⟨_, read, finite, readConstraint_text_iff read finite, by decide +kernel⟩

/-- The name `e5` blends with the sum of its coefficients, and the text is read as `200000 <= 1`. -/
theorem blending_not_read_back :
    ∃ c, readConstraint "e5 + e5 <= 1" = .ok c ∧ c.Finite ∧ c.text = "2e5 <= 1" ∧
      readConstraint c.text = .ok ⟨[], .le, -199999⟩ ∧ readConstraint c.text ≠ .ok c := by
  refine ⟨⟨[{ coefficient := 2, name := "e5" }], .le, 1⟩, by decide +kernel,
    ⟨by decide +kernel, by decide +kernel⟩, by decide +kernel, by decide +kernel, by decide +kernel⟩

end Simplex
