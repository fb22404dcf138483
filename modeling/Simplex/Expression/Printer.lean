import Simplex.Problem
import Simplex.Decimal.Printer

/-!
The written form of expressions and constraints, such as `x1 - 3x2 + 2.5 <= 4`.
-/
namespace Simplex

namespace Term

/-- A term without its sign: the magnitude, left out before a variable if it is one, and the
    name. -/
def unsignedText (t : Term Float) : List Char :=
  let magnitude := t.coefficient.abs
  (if t.isConstant || !(magnitude == 1) then Decimal.shortestText magnitude else [])
    ++ t.name.toList

/-- The coefficient is written with a minus. -/
def isNegative (t : Term Float) : Bool :=
  Binary64.isNegative t.coefficient || t.minusUndefined

end Term

namespace Expression

/-- The terms after the first, each behind its spaced sign. -/
def laterText (e : Expression Float) : List Char :=
  e.flatMap fun t => [' ', if t.isNegative then '-' else '+', ' '] ++ t.unsignedText

/-- The characters of the written form; the empty expression is `0`. -/
def chars : Expression Float → List Char
  | [] => ['0']
  | first :: later =>
    (if first.isNegative then ['-'] else []) ++ first.unsignedText ++ laterText later

/-- The written form of an expression. -/
def text (e : Expression Float) : String := String.ofList e.chars

end Expression

/-- The written form of a constraint. -/
def Constraint.text (c : Constraint Float) : String :=
  Expression.text c.lhs ++ " " ++ c.relation.symbol ++ " " ++ Decimal.text c.rhs

end Simplex
