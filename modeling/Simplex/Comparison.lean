import Simplex.Problem
import Simplex.Expression.Reader

/-!
Constraints as they are written: two expressions with a relation between them, read from a text and
brought to normal form with the variables on the left and the constant on the right.
-/
namespace Simplex

/-- Two sides with a relation between them. -/
structure Comparison (α : Type) where
  left : Expression α
  relation : Relation
  right : Expression α
  deriving DecidableEq, Repr

namespace Comparison

/-- A side of a comparison. -/
inductive Side where
  | left
  | right
  deriving DecidableEq, Repr

/-- The word for a side. -/
def Side.word : Side → String
  | left => "left"
  | right => "right"

/-- Why a text is no comparison. -/
inductive Issue where
  | missingRelation
  | chainedRelation
  | emptySide (side : Side)
  | invalidSide (side : Side) (issue : Expression.Issue)
  deriving DecidableEq, Repr

/-- The words for an issue. -/
def Issue.message : Issue → String
  | missingRelation => "no relational operator (<, <=, =, >=, >)"
  | chainedRelation => "more than one relational operator"
  | emptySide side => side.word ++ " side is empty"
  | invalidSide side issue => side.word ++ " side: " ++ issue.message

/-- A character that a relation begins with. -/
def isRelationChar (c : Char) : Bool := c == '<' || c == '=' || c == '>'

/-- The relation at the start, the longer one where two begin there, and what follows. -/
def spanRelation? : List Char → Option (Relation × List Char)
  | '<' :: '=' :: rest => some (.le, rest)
  | '>' :: '=' :: rest => some (.ge, rest)
  | '<' :: rest => some (.lt, rest)
  | '>' :: rest => some (.gt, rest)
  | '=' :: rest => some (.eq, rest)
  | _ => none

/-- The text before the leftmost relation, the relation, and the text after it. -/
def split? (cs : List Char) : Option (List Char × Relation × List Char) :=
  (spanRelation? (cs.dropWhile fun c => !isRelationChar c)).map fun (relation, right) =>
    (cs.takeWhile fun c => !isRelationChar c, relation, right)

/-- Reads a side; it must not be empty. -/
def readSide (side : Side) (cs : List Char) : Except Issue (Expression Float) :=
  if cs.isEmpty then .error (.emptySide side)
  else (Expression.read (String.ofList cs)).mapError (.invalidSide side)

/-- Reads a comparison, blanks left out: the relation first, then the left side, then the right. -/
def read (text : String) : Except Issue (Comparison Float) := do
  match split? (Text.withoutBlanks text).toList with
  | none => throw .missingRelation
  | some (left, relation, right) =>
    if right.head?.any isRelationChar then throw .chainedRelation
    let left ← readSide .left left
    let right ← readSide .right right
    pure ⟨left, relation, right⟩

/-- The constraint that a comparison states: variables are merged on the left, those of the right
    side negated, and the constants are merged on the right. -/
def normalize {α : Type} [Scalar α] (c : Comparison α) : Constraint α where
  lhs := (c.left.variableTerms ++ c.right.variableTerms.map Term.negated : Expression α).merge
  relation := c.relation
  rhs := c.right.constant - c.left.constant

end Comparison

end Simplex
