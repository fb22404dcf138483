import Simplex.Proofs.Legibility

/-!
Reading expressions back. Without its blanks a written expression is read as the same expression
just if no name blends with the magnitude before it, and no name does that unless it begins like a
power of ten.
-/
namespace Simplex

open Expression (beginsPower blends compact isExponentLetter)
open Text (BeginsOutside isNameChar)

namespace Expression

variable {e : Expression Float}

theorem withoutBlanks_text (writable : ∀ t ∈ e, t.Writable) :
    Text.withoutBlanks e.text = String.ofList (compact e) := by
  rw [Text.withoutBlanks, text, String.toList_ofList, filter_chars writable]

/-- An expression is read back from its text without blanks just if it is legible. -/
theorem reread_iff (nonempty : e ≠ []) (writable : ∀ t ∈ e, t.Writable) :
    Expression.read (Text.withoutBlanks e.text) = .ok e ↔ e.legible = true := by
  rw [withoutBlanks_text writable]
  constructor
  · intro read
    exact legible_of_read writable read (List.Sublist.refl _)
  · exact read_compact nonempty writable

end Expression

namespace Term

/-- A term that can be written and whose name does not begin like a power of ten: it is neither of
    the letters alone, nor does it begin with one of them and a digit from `0` to `9`. -/
structure Rereadable (t : Term Float) : Prop extends t.Writable where
  lone : t.name ≠ "e" ∧ t.name ≠ "E"
  power : ∀ c d rest, t.name.toList = c :: d :: rest → c = 'e' ∨ c = 'E' → d.isDigit = false

variable {t : Term Float}

theorem Rereadable.not_beginsPower (h : t.Rereadable) (digitFollows : Bool) :
    beginsPower t.name.toList digitFollows = false := by
  cases chars : t.name.toList with
  | nil => rfl
  | cons c later =>
    by_cases letter : isExponentLetter c = true
    · have own : c = 'e' ∨ c = 'E' := by simpa [isExponentLetter] using letter
      cases later with
      | nil =>
        -- a letter alone would be the whole name
        have name : t.name = String.ofList [c] := by rw [← chars, String.ofList_toList]
        rcases own with rfl | rfl
        · exact absurd name h.lone.1
        · exact absurd name h.lone.2
      | cons d rest => simp [beginsPower, h.power c d rest chars own]
    · cases later <;> simp [beginsPower, letter]

theorem rereadable_iff : t.Rereadable ↔ t.Writable ∧ beginsPower t.name.toList true = false := by
  constructor
  · exact fun h => ⟨h.toWritable, h.not_beginsPower true⟩
  · rintro ⟨writable, apart⟩
    refine ⟨writable, ⟨?_, ?_⟩, ?_⟩
    · intro name
      rw [name] at apart
      exact absurd apart (by decide)
    · intro name
      rw [name] at apart
      exact absurd apart (by decide)
    · intro c d rest chars letter
      rw [chars] at apart
      rcases letter with rfl | rfl <;> simpa [beginsPower, isExponentLetter] using apart

theorem writable_iff : t.Writable ↔ t.coefficient.isFinite = true ∧ t.minusUndefined = false ∧
    t.name.toList.all isNameChar = true ∧ t.name.toList.head?.all (fun c => !c.isDigit) = true := by
  rw [List.all_eq_true, Option.all_eq_true]
  simp only [Bool.not_eq_true']
  constructor
  · exact fun h => ⟨h.finite, h.defined, h.letters, h.plain⟩
  · rintro ⟨finite, defined, letters, plain⟩
    exact ⟨finite, defined, letters, plain⟩

instance (t : Term Float) : Decidable t.Writable := decidable_of_iff' _ writable_iff

instance (t : Term Float) : Decidable t.Rereadable := decidable_of_iff' _ rereadable_iff

end Term

theorem Expression.legible_of_rereadable {e : Expression Float} (plain : ∀ t ∈ e, t.Rereadable) :
    e.legible = true := by
  induction e with
  | nil => rfl
  | cons t later ih =>
    rw [List.forall_mem_cons] at plain
    rw [legible, blends, plain.1.not_beginsPower, Bool.and_false, ih plain.2]
    rfl

/-- Writing an expression and reading it without its blanks gives the same terms, with their order,
    their names and their doubles. -/
theorem expression_reread (e : Expression Float) (nonempty : e ≠ [])
    (plain : ∀ t ∈ e, t.Rereadable) :
    Expression.read (Text.withoutBlanks e.text) = .ok e :=
  (Expression.reread_iff nonempty fun t member => (plain t member).toWritable).mpr
    (Expression.legible_of_rereadable plain)

/-- A negative zero, constants and coefficients of magnitude one, and names with an `e` that begin
    no power of ten. -/
def strayLetters : Expression Float :=
  [{ coefficient := -0, name := "ex" }, { coefficient := 1, name := "é²" },
    { coefficient := -1, name := "" }, { coefficient := 1, name := "" },
    { coefficient := 2.5e-7, name := "_e5" }, { coefficient := -1, name := "E_1" },
    { coefficient := 1e21, name := "e²" }]

theorem strayLetters_reread : strayLetters ≠ [] ∧ (∀ t ∈ strayLetters, t.Rereadable) ∧
    Text.withoutBlanks strayLetters.text =
      "-0ex+é²-1+1+0.00000025_e5-E_1+1000000000000000000000e²" ∧
    Expression.read (Text.withoutBlanks strayLetters.text) = .ok strayLetters := by
  have nonempty : strayLetters ≠ [] := by simp [strayLetters]
  have checked : (strayLetters.all fun t => decide t.Rereadable) = true := by decide +kernel
  have plain : ∀ t ∈ strayLetters, t.Rereadable := by simpa using checked
  exact ⟨nonempty, plain, by decide +kernel, expression_reread strayLetters nonempty plain⟩

end Simplex
