import Simplex.Draft
import Simplex.Proofs.Scanning

/-!
What the reader answers to the text of a constraint. The first relation divides the text, blanks left
out, and the checks follow in a fixed order: whether there is a relation, whether another one stands
right behind it, then the left side and the right side, each empty or no expression.
-/
namespace Simplex

namespace Comparison

open Expression (Accepted)

/-! ### The division -/

theorem isRelationChar_iff {c : Char} : isRelationChar c = true ↔ c ∈ ['<', '=', '>'] := by
  simp [isRelationChar, or_assoc]

/-- No relation begins anywhere in the text. -/
def RelationFree (cs : List Char) : Prop := ∀ c ∈ ['<', '=', '>'], c ∉ cs

/-- The text begins with a character of a relation. -/
def BeginsWithRelation (cs : List Char) : Prop := ∃ c ∈ ['<', '=', '>'], cs.head? = some c

theorem relationFree_iff {cs : List Char} : RelationFree cs ↔ split? cs = none := by
  rw [split?_eq_none_iff]
  constructor
  · intro free c member
    by_contra first
    exact free c (isRelationChar_iff.mp (by simpa using first)) member
  · intro outside c first member
    exact absurd (outside c member) (by simpa using isRelationChar_iff.mpr first)

theorem not_beginsWithRelation_iff {cs : List Char} :
    ¬ BeginsWithRelation cs ↔ Text.BeginsOutside isRelationChar cs := by
  cases cs with
  | nil => simp [BeginsWithRelation]
  | cons c rest =>
    rw [Text.beginsOutside_cons, ← Bool.not_eq_true, isRelationChar_iff]
    simp [BeginsWithRelation]

/-- A text with a character of a relation divides in exactly one way. -/
theorem existsUnique_divides {cs : List Char} (related : ¬ RelationFree cs) :
    ∃! parts : List Char × Relation × List Char, Divides cs parts.1 parts.2.1 parts.2.2 := by
  rw [relationFree_iff, ← ne_eq, Option.ne_none_iff_exists'] at related
  obtain ⟨⟨left, relation, right⟩, found⟩ := related
  have divides := split?_eq_some_iff_divides.mp found
  refine ⟨(left, relation, right), divides, fun other others => ?_⟩
  obtain ⟨rfl, rfl, rfl⟩ := divides.unique others
  rfl

/-! ### The checks -/

/-- The issue of a text without blanks. Each check comes after those that it names as passed. -/
def Diagnosed (cs : List Char) : Issue → Prop
  | .missingRelation => RelationFree cs
  | .chainedRelation => ∃ left relation right, Divides cs left relation right ∧
      BeginsWithRelation right
  | .emptySide .left => ∃ left relation right, Divides cs left relation right ∧
      ¬ BeginsWithRelation right ∧ left = []
  | .invalidSide .left issue => ∃ left relation right, Divides cs left relation right ∧
      ¬ BeginsWithRelation right ∧ left ≠ [] ∧ Expression.read (String.ofList left) = .error issue
  | .emptySide .right => ∃ left relation right, Divides cs left relation right ∧
      ¬ BeginsWithRelation right ∧ Accepted (String.ofList left) ∧ right = []
  | .invalidSide .right issue => ∃ left relation right, Divides cs left relation right ∧
      ¬ BeginsWithRelation right ∧ Accepted (String.ofList left) ∧ right ≠ [] ∧
      Expression.read (String.ofList right) = .error issue

/-- A text without blanks states a comparison. -/
def States (cs : List Char) (c : Comparison Float) : Prop :=
  ∃ left right, Divides cs left c.relation right ∧ ¬ BeginsWithRelation right ∧
    Expression.read (String.ofList left) = .ok c.left ∧
    Expression.read (String.ofList right) = .ok c.right

theorem readSide_error {side : Side} {cs : List Char} {issue : Issue}
    (failed : readSide side cs = .error issue) : (cs = [] ∧ issue = .emptySide side) ∨
      ∃ own, cs ≠ [] ∧ Expression.read (String.ofList cs) = .error own ∧
        issue = .invalidSide side own := by
  unfold readSide at failed
  split at failed
  · rename_i empty
    cases failed
    exact .inl ⟨List.isEmpty_iff.mp empty, rfl⟩
  · rename_i nonempty
    obtain ⟨own, read, rfl⟩ := mapError_eq_error_iff.mp failed
    exact .inr ⟨own, by simpa using nonempty, read, rfl⟩

theorem readSide_of_error (side : Side) {cs : List Char} {issue : Expression.Issue}
    (nonempty : cs ≠ []) (failed : Expression.read (String.ofList cs) = .error issue) :
    readSide side cs = .error (.invalidSide side issue) := by
  rw [readSide, if_neg (by simpa using nonempty), failed]
  rfl

theorem read_eq_error_iff {text : String} {issue : Issue} : Comparison.read text = .error issue ↔
    Diagnosed (Text.withoutBlanks text).toList issue := by
  constructor
  · intro failed
    by_cases free : RelationFree (Text.withoutBlanks text).toList
    · rw [Comparison.read, relationFree_iff.mp free] at failed
      cases failed
      exact free
    · obtain ⟨⟨left, relation, right⟩, divides, _⟩ := existsUnique_divides free
      by_cases chained : BeginsWithRelation right
      · rw [read_of_chained divides fun stop => not_beginsWithRelation_iff.mpr stop chained] at failed
        cases failed
        exact ⟨left, relation, right, divides, chained⟩
      · rw [read_of_stop divides (not_beginsWithRelation_iff.mp chained)] at failed
        rcases bind_eq_error_iff.mp failed with own | ⟨l, readLeft, failed⟩
        · rcases readSide_error own with ⟨empty, rfl⟩ | ⟨_, nonempty, invalid, rfl⟩
          · exact ⟨left, relation, right, divides, chained, empty⟩
          · exact ⟨left, relation, right, divides, chained, nonempty, invalid⟩
        · have accepted : Accepted (String.ofList left) := ⟨l, readSide_eq_ok_iff.mp readLeft⟩
          rcases bind_eq_error_iff.mp failed with own | ⟨r, _, failed⟩
          · rcases readSide_error own with ⟨empty, rfl⟩ | ⟨_, nonempty, invalid, rfl⟩
            · exact ⟨left, relation, right, divides, chained, accepted, empty⟩
            · exact ⟨left, relation, right, divides, chained, accepted, nonempty, invalid⟩
          · cases failed
  · intro diagnosed
    cases issue with
    | missingRelation =>
      rw [Comparison.read, relationFree_iff.mp diagnosed]
      rfl
    | chainedRelation =>
      obtain ⟨_, _, _, divides, chained⟩ := diagnosed
      exact read_of_chained divides fun stop => not_beginsWithRelation_iff.mpr stop chained
    | emptySide side =>
      cases side with
      | left =>
        obtain ⟨_, _, _, divides, single, rfl⟩ := diagnosed
        rw [read_of_stop divides (not_beginsWithRelation_iff.mp single)]
        rfl
      | right =>
        obtain ⟨_, _, _, divides, single, ⟨_, accepted⟩, rfl⟩ := diagnosed
        rw [read_of_stop divides (not_beginsWithRelation_iff.mp single),
          readSide_eq_ok_iff.mpr accepted]
        rfl
    | invalidSide side own =>
      cases side with
      | left =>
        obtain ⟨_, _, _, divides, single, nonempty, invalid⟩ := diagnosed
        rw [read_of_stop divides (not_beginsWithRelation_iff.mp single),
          readSide_of_error .left nonempty invalid]
        rfl
      | right =>
        obtain ⟨_, _, _, divides, single, ⟨_, accepted⟩, nonempty, invalid⟩ := diagnosed
        rw [read_of_stop divides (not_beginsWithRelation_iff.mp single),
          readSide_eq_ok_iff.mpr accepted, readSide_of_error .right nonempty invalid]
        rfl

theorem read_eq_ok_iff_states {text : String} {c : Comparison Float} :
    Comparison.read text = .ok c ↔ States (Text.withoutBlanks text).toList c := by
  rw [read_eq_ok_iff]
  refine exists_congr fun left => exists_congr fun right => ⟨fun sides => ?_, ?_⟩
  · exact ⟨sides.divides, not_beginsWithRelation_iff.mpr sides.stop, sides.readLeft,
      sides.readRight⟩
  · rintro ⟨divides, single, readLeft, readRight⟩
    exact ⟨divides.joined, divides.outside, not_beginsWithRelation_iff.mp single, readLeft,
      readRight⟩

end Comparison

/-- The answer to the text of a constraint: the normal form of the comparison that it states, with the
    same relation, or else its issue, with the text as it was given. -/
def Verdict (text : String) : Except ReadError (Constraint Float) → Prop
  | .ok constraint => ∃ c, Comparison.States (Text.withoutBlanks text).toList c ∧
      constraint = c.normalize ∧ constraint.relation = c.relation
  | .error (.constraint given issue) =>
      given = text ∧ Comparison.Diagnosed (Text.withoutBlanks text).toList issue
  | .error _ => False

theorem verdict_readConstraint (text : String) : Verdict text (readConstraint text) := by
  unfold readConstraint readComparison
  cases read : Comparison.read text with
  | error issue => exact ⟨rfl, Comparison.read_eq_error_iff.mp read⟩
  | ok c => exact ⟨c, Comparison.read_eq_ok_iff_states.mp read, rfl, rfl⟩

theorem Verdict.eq {text : String} {result : Except ReadError (Constraint Float)}
    (verdict : Verdict text result) : readConstraint text = result := by
  unfold readConstraint readComparison
  cases result with
  | ok constraint =>
    obtain ⟨c, states, rfl, _⟩ := verdict
    rw [Comparison.read_eq_ok_iff_states.mpr states]
    rfl
  | error cause =>
    cases cause with
    | constraint given issue =>
      obtain ⟨rfl, diagnosed⟩ := verdict
      rw [Comparison.read_eq_error_iff.mpr diagnosed]
      rfl
    | expression | direction | noConstraints => exact verdict.elim

/-- A constraint is read just if its text is two expressions with the first relation between them;
    otherwise the issue is that of the first check that fails. A text with a relation divides in one
    way, and the bytes at which it is cut never split a character. -/
theorem constraint_verdict (text : String) :
    (∀ result, readConstraint text = result ↔ Verdict text result) ∧
    (¬ Comparison.RelationFree (Text.withoutBlanks text).toList →
      ∃! parts : List Char × Relation × List Char,
        Comparison.Divides (Text.withoutBlanks text).toList parts.1 parts.2.1 parts.2.2) ∧
    Comparison.scan? text = some (Comparison.read text) :=
  ⟨fun _ => ⟨fun same => same ▸ verdict_readConstraint text, Verdict.eq⟩,
    Comparison.existsUnique_divides, Comparison.scan?_eq text⟩

/-- The second relation stands where the right side cannot go on, behind a name of two bytes. -/
theorem second_relation_verdict :
    readConstraint "2x <= 3é >= 4" =
      .error (.constraint "2x <= 3é >= 4" (.invalidSide .right (.unexpectedChar '>' 3))) ∧
    Verdict "2x <= 3é >= 4"
      (.error (.constraint "2x <= 3é >= 4" (.invalidSide .right (.unexpectedChar '>' 3)))) ∧
    ∃! parts : List Char × Relation × List Char, Comparison.Divides
      (Text.withoutBlanks "2x <= 3é >= 4").toList parts.1 parts.2.1 parts.2.2 := by
  have answer : readConstraint "2x <= 3é >= 4" =
      .error (.constraint "2x <= 3é >= 4" (.invalidSide .right (.unexpectedChar '>' 3))) := by
    decide +kernel
  obtain ⟨verdict, divides, _⟩ := constraint_verdict "2x <= 3é >= 4"
  have related : '<' ∈ (Text.withoutBlanks "2x <= 3é >= 4").toList := by decide +kernel
  exact ⟨answer, (verdict _).mp answer, divides fun free => free '<' (by decide) related⟩

end Simplex
