import Simplex.Decimal.Binary64

/-!
Decimals, the double nearest to one and its positional notation.
-/
namespace Simplex

/-- The number `digits * 10^exponent`. -/
structure Decimal where
  digits : Nat
  exponent : Int
  deriving DecidableEq, Repr

namespace Decimal
open Simplex.Binary64

/-- The units of the double nearest to the decimal, of two equally near ones the even. A decimal
    of `10^400` and more is past every double, one below `10^-399` is nearest to zero. -/
def nearestUnits (d : Decimal) : Nat :=
  if d.digits = 0 then 0
  else if 400 < d.exponent then Nat.pow 2 2098
  else if d.exponent < -(400 + (d.digits.log2 : Int)) then 0
  else match d.exponent with
    | .ofNat e => Binary64.nearestUnits (d.digits * Nat.pow 10 e) 1
    | .negSucc e => Binary64.nearestUnits d.digits (Nat.pow 10 (e + 1))

/-- The double nearest to the decimal; past the largest double it is infinite. -/
def toFloat (d : Decimal) : Float := ofUnits d.nearestUnits

/-- The characters of the positional notation: all digits and never an exponent, with a point only
    before a fraction and at least one digit before the point. -/
def positional (d : Decimal) : List Char :=
  let digits := Nat.toDigits 10 d.digits
  match d.exponent with
  | .ofNat e => digits ++ List.replicate e '0'
  | .negSucc e =>
    let padded := List.replicate (e + 2 - digits.length) '0' ++ digits
    let whole := padded.length - (e + 1)
    padded.take whole ++ '.' :: padded.drop whole

end Decimal

end Simplex
