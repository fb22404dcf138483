import Simplex.Decimal.Shortest

/-!
The texts of doubles: shortest digits in positional notation, the notation of JSON, and a fixed
number of places.
-/
namespace Simplex.Decimal
open Simplex.Binary64

/-- The sign of a text: a minus if the sign bit is set. -/
def signOf (x : Float) : List Char := if isNegative x then ['-'] else []

/-- The characters of the magnitude of a double: the shortest digits in positional notation, a tie
    going to the greater decimal. -/
def shortestText (x : Float) : List Char :=
  if x.isNaN then ['N', 'a', 'N']
  else if x.isInf then ['i', 'n', 'f']
  else (shortest .greater (units x)).positional

/-- A double as text: the shortest digits that read back, in positional notation, with the sign of
    zero kept. -/
def text (x : Float) : String := String.ofList (signOf x ++ shortestText x)

/-- The notation of JSON: positional with at least one place when the magnitude is zero or lies
    from `10^-5` to below `10^16`, else one digit before the point and a signed exponent. Of two
    equally near decimals it takes the even one. -/
def jsonText (x : Float) : String :=
  let d := shortest .even (units x)
  let digits := Nat.toDigits 10 d.digits
  let leading := d.exponent + digits.length - 1
  let body :=
    if d.digits = 0 ∨ (-5 ≤ leading ∧ leading < 16) then
      if d.exponent < 0 then d.positional else d.positional ++ ['.', '0']
    else
      let fraction := digits.drop 1
      let mantissa := digits.take 1 ++ (if fraction.isEmpty then [] else '.' :: fraction)
      let sign := if leading < 0 then '-' else '+'
      mantissa ++ ['e', sign] ++ Nat.toDigits 10 leading.natAbs
  String.ofList (signOf x ++ body)

/-- The magnitude of a finite double in steps of `10^-places`, rounded to the nearest step. -/
def stepsOf (places : Nat) (x : Float) : Nat :=
  roundHalfEven (units x * Nat.pow 10 places) unitsPerOne

/-- The number `digits * 10^-places` without the zeros that end its fraction. -/
def withoutZeros : (places digits : Nat) → Decimal
  | 0, digits => ⟨digits, 0⟩
  | places + 1, digits =>
    if digits % 10 = 0 then withoutZeros places (digits / 10) else ⟨digits, -(places + 1 : Nat)⟩

/-- A double rounded to a number of places, without zeros that end the fraction and without a
    negative zero. -/
def roundedText (places : Nat) (x : Float) : String :=
  if x.isNaN then "NaN"
  else if x.isInf then text x
  else
    let steps := stepsOf places x
    let sign := if steps = 0 then [] else signOf x
    String.ofList (sign ++ (withoutZeros places steps).positional)

end Simplex.Decimal
