/-!
The numbers that the method computes with. Every step of the method is written over `Scalar`, so
the same definitions run on doubles and on exact rationals.
-/
namespace Simplex

/-- What the method asks of its numbers: zero and one, the four operations, comparison, magnitude
    and a test for finiteness. No law is assumed. -/
class Scalar (α : Type) extends Add α, Sub α, Mul α, Div α, Neg α, LT α, BEq α, Zero α, One α where
  /-- The absolute value. -/
  magnitude : α → α
  /-- Neither infinite nor the result of an undefined operation. -/
  isFinite : α → Bool
  /-- Every comparison is decided. -/
  decidableLT : DecidableLT α

instance instDecidableLTScalar {α : Type} [Scalar α] : DecidableLT α := Scalar.decidableLT

/-- Doubles: every operation rounds to the nearest, comparisons with a NaN fail. -/
instance : Scalar Float where
  toAdd := instAddFloat
  toSub := instSubFloat
  toMul := instMulFloat
  toDiv := instDivFloat
  toNeg := instNegFloat
  toLT := instLTFloat
  toBEq := instBEqFloat
  zero := 0
  one := 1
  magnitude := Float.abs
  isFinite := Float.isFinite
  decidableLT := Float.decLt

/-- Exact rationals: nothing is rounded and every number is finite. -/
instance : Scalar Rat where
  toAdd := Rat.instAdd
  toSub := Rat.instSub
  toMul := Rat.instMul
  toDiv := Rat.instDiv
  toNeg := Rat.instNeg
  toLT := Rat.instLT
  toBEq := @instBEqOfDecidableEq Rat instDecidableEqRat
  zero := 0
  one := 1
  magnitude := Rat.abs
  isFinite _ := true
  decidableLT := Rat.instDecidableLt

namespace Scalar

variable {α : Type} [Scalar α]

/-- The result of an undefined operation: a number that differs from itself. -/
def isUndefined (x : α) : Bool := !(x == x)

/-- The sum from left to right, begun at `-0`: on doubles that is the start which changes no
    summand, so that a sum of negative zeros is a negative zero. -/
def sum (xs : List α) : α := xs.foldl (· + ·) (-0)

/-- The sum from left to right, begun at `0`. -/
def accumulate (xs : List α) : α := xs.foldl (· + ·) 0

end Scalar

end Simplex
