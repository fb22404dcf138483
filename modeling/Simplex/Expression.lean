import Simplex.Arithmetic

/-!
Linear expressions: lists of terms, their variables and constants, and merging by name.

An undefined coefficient has a sign, as every double has. No comparison and no operation tells it
from the other sign, so the term keeps it, for the written form alone to show.
-/
namespace Simplex

/-- A coefficient times a variable; with the empty name it is a constant. -/
structure Term (α : Type) where
  coefficient : α
  name : String
  /-- The coefficient is undefined and has a minus. -/
  minusUndefined : Bool := false
  deriving DecidableEq, Repr

namespace Term

variable {α : Type}

/-- A constant has no variable. -/
def isConstant (t : Term α) : Bool := t.name.isEmpty

/-- The term with the opposite coefficient, the sign of an undefined one turned too. -/
def negated [Scalar α] (t : Term α) : Term α where
  coefficient := -t.coefficient
  name := t.name
  minusUndefined := Scalar.isUndefined t.coefficient && !t.minusUndefined

/-- The sum of two terms of one variable. Where it is undefined it has the sign of the first
    undefined summand, and a minus where infinities of opposite signs are added. -/
def add [Scalar α] (s t : Term α) : Term α where
  coefficient := s.coefficient + t.coefficient
  name := s.name
  minusUndefined :=
    if !Scalar.isUndefined (s.coefficient + t.coefficient) then false
    else if Scalar.isUndefined s.coefficient then s.minusUndefined
    else if Scalar.isUndefined t.coefficient then t.minusUndefined
    else true

end Term

/-- A sum of terms, in order; nothing is merged unless `merge` is called. -/
abbrev Expression (α : Type) := List (Term α)

namespace Expression

variable {α : Type}

/-- The terms with a variable. -/
def variableTerms (e : Expression α) : Expression α := e.filter fun t => !t.isConstant

/-- The sum of the constants. -/
def constant [Scalar α] (e : Expression α) : α :=
  Scalar.accumulate ((e.filter Term.isConstant).map Term.coefficient)

/-- Adds a term to the first one of its name, or puts it at the end. -/
def absorb [Scalar α] : Expression α → Term α → Expression α
  | [], t => [t]
  | s :: rest, t =>
    if s.name = t.name then s.add t :: rest
    else s :: absorb rest t

/-- One term for each name, in order of first appearance, with the sum of its coefficients; names
    whose sum is zero are dropped. -/
def merge [Scalar α] (e : Expression α) : Expression α :=
  (e.foldl absorb []).filter fun t => !(t.coefficient == 0)

/-- The distinct variables, in order of first appearance. -/
def variableNames (e : Expression α) : List String :=
  (e.variableTerms.map Term.name).eraseDups

end Expression

end Simplex
