import Simplex.Decimal.Basic

/-!
The decimal with the fewest digits that reads back as a given magnitude.
-/
namespace Simplex.Decimal
open Simplex.Binary64

/-- The quotient and the remainder of a magnitude by the step `10^k` of a decimal grid, and the
    step, all in one unit. -/
def gridSplit (magnitude : Nat) (k : Int) : Nat × Nat × Nat :=
  match k with
  | .ofNat e =>
    let step := unitsPerOne * Nat.pow 10 e
    (magnitude / step, magnitude % step, step)
  | .negSucc e =>
    let scaled := magnitude * Nat.pow 10 (e + 1)
    (scaled / unitsPerOne, scaled % unitsPerOne, unitsPerOne)

/-- Which of two equally near decimals is taken: the greater, or the one whose last digit is even. -/
inductive Tie where
  | greater
  | even
  deriving DecidableEq, Repr

/-- The lower neighbour is preferred: it is nearer, or equally near and the tie goes to it. -/
def prefersLow (tie : Tie) (below rest step : Nat) : Bool :=
  2 * rest < step || (2 * rest == step && tie == .even && below % 2 == 0)

/-- The point of the grid `10^k` that reads back as the magnitude: of its two neighbours the one
    that does, and the preferred one if both do. -/
def readsBackOn? (tie : Tie) (magnitude : Nat) (k : Int) : Option Decimal :=
  let (below, rest, step) := gridSplit magnitude k
  let low : Decimal := ⟨below, k⟩
  let high : Decimal := ⟨below + 1, k⟩
  match low.nearestUnits == magnitude, high.nearestUnits == magnitude with
  | true, true => some (if prefersLow tie below rest step then low else high)
  | true, false => some low
  | false, true => some high
  | false, false => none

/-- A grid coarser than the magnitude. -/
def coarseGrid (magnitude : Nat) : Int :=
  ((magnitude.log2 : Int) - 1073) * 30103 / 100000 + 2

/-- All digits of a magnitude. -/
def exact (magnitude : Nat) : Decimal := ⟨magnitude * Nat.pow 5 1074, -1074⟩

/-- The decimal with the fewest digits that reads back as the magnitude, given in units: the point
    of the coarsest grid that has one. Seventeen digits always suffice. -/
def shortest (tie : Tie) (magnitude : Nat) : Decimal :=
  if magnitude = 0 then ⟨0, 0⟩
  else
    let coarse := coarseGrid magnitude
    ((List.range 21).findSome? fun (i : Nat) =>
      readsBackOn? tie magnitude (coarse - (i : Int))).getD (exact magnitude)

end Simplex.Decimal
