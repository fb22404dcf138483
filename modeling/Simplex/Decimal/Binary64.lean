/-!
The exact magnitude of a double, and the double nearest to a quotient.
-/
namespace Simplex.Binary64

/-- The number of units of `2^-1074`, the least positive double, in one. -/
def unitsPerOne : Nat := Nat.pow 2 1074

/-- The leading bit of a normal double, which is not written. -/
def hidden : Nat := Nat.pow 2 52

/-- The magnitude of a finite double is a whole number of units of `2^-1074`. -/
def units (x : Float) : Nat :=
  let bits := x.toBits.toNat
  let fraction := bits % hidden
  let exponent := bits / hidden % 2048
  if exponent = 0 then fraction else (hidden + fraction) * Nat.pow 2 (exponent - 1)

/-- The sign bit is set; a NaN counts as positive. -/
def isNegative (x : Float) : Bool := decide (Nat.pow 2 63 ≤ x.toBits.toNat)

/-- The double whose magnitude is the given number of units, which must have 53 significant bits at
    most; from `2^1024` on it is infinite. -/
def ofUnits (n : Nat) : Float :=
  let bits :=
    if n < hidden then n
    else if Nat.pow 2 2098 ≤ n then 2047 * hidden
    else
      let shift := n.log2 - 52
      shift * hidden + n / Nat.pow 2 shift
  Float.ofBits bits.toUInt64

/-- A quotient rounded to the nearest whole number, a half to the even one. -/
def roundHalfEven (numerator denominator : Nat) : Nat :=
  let below := numerator / denominator
  let twice := 2 * (numerator % denominator)
  if twice < denominator then below
  else if denominator < twice then below + 1
  else if below % 2 = 0 then below else below + 1

/-- The units of the double nearest to a quotient: rounded to 53 significant bits, and to whole
    units where that is coarser. -/
def nearestUnits (numerator denominator : Nat) : Nat :=
  let scaled := numerator * unitsPerOne
  let shift := (scaled / denominator).log2 - 52
  roundHalfEven scaled (denominator * Nat.pow 2 shift) * Nat.pow 2 shift

end Simplex.Binary64
