import Simplex.Decimal.Basic

/-!
Reading doubles: signed decimals with an optional exponent, and the names of the values that are
not finite.
-/
namespace Simplex.Decimal

/-- The value of a run of decimal digits. -/
def natOfDigits (digits : List Char) : Nat := Nat.ofDigitChars 10 digits 0

/-- A sign at the start, and what follows it; no sign counts as plus. -/
def splitSign : List Char → Bool × List Char
  | '+' :: rest => (false, rest)
  | '-' :: rest => (true, rest)
  | chars => (false, chars)

/-- A whole text `e`, an optional sign and digits, or nothing, as a power of ten. -/
def readExponent? : List Char → Option Int
  | [] => some 0
  | e :: rest =>
    if e = 'e' || e = 'E' then
      let (negative, digits) := splitSign rest
      if digits.isEmpty || !digits.all Char.isDigit then none
      else some (if negative then -(natOfDigits digits : Int) else natOfDigits digits)
    else none

/-- A whole text of digits with an optional point before, in or after them and an optional
    exponent. -/
def readUnsigned? (chars : List Char) : Option Decimal :=
  let whole := chars.takeWhile Char.isDigit
  let (fraction, rest) :=
    match chars.dropWhile Char.isDigit with
    | '.' :: rest => (rest.takeWhile Char.isDigit, rest.dropWhile Char.isDigit)
    | rest => ([], rest)
  if whole.isEmpty && fraction.isEmpty then none
  else (readExponent? rest).map fun e => ⟨natOfDigits (whole ++ fraction), e - fraction.length⟩

/-- A whole text as a double: an optional sign, then a decimal or, in any case of its letters,
    `inf`, `infinity` or `nan`. -/
def read? (chars : List Char) : Option Float :=
  let (negative, body) := splitSign chars
  let name := String.ofList (body.map Char.toLower)
  let magnitude :=
    if name = "inf" || name = "infinity" then some (1.0 / 0.0)
    else if name = "nan" then some (0.0 / 0.0)
    else (readUnsigned? body).map toFloat
  magnitude.map fun x => if negative then -x else x

end Simplex.Decimal
