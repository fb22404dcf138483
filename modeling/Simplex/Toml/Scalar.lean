import Simplex.Toml.Value
import Simplex.Decimal.Reader

/-!
Numbers, booleans, dates and times of TOML, recognized as whole words.
-/
namespace Simplex.Toml

/-- Digits, with single underscores between them. -/
def isRun (digit : Char → Bool) : List Char → Bool
  | [] => false
  | [c] => digit c
  | c :: '_' :: rest => digit c && isRun digit rest
  | c :: rest => digit c && isRun digit rest

/-- A decimal run that does not begin with a superfluous zero. -/
def isWhole (cs : List Char) : Bool :=
  isRun Char.isDigit cs && (cs.head? != some '0' || cs.length == 1)

/-- The value of a digit in bases up to sixteen. -/
def digitValue (c : Char) : Nat :=
  if c.isDigit then c.toNat - '0'.toNat else c.toLower.toNat - 'a'.toNat + 10

/-- The character is a digit of the base. -/
def isDigitOf (base : Nat) (c : Char) : Bool :=
  (c.isDigit || ('a' ≤ c.toLower && c.toLower ≤ 'f')) && decide (digitValue c < base)

/-- The value of a run, its underscores passed over. -/
def runValue (base : Nat) (cs : List Char) : Nat :=
  (cs.filter (· != '_')).foldl (fun n c => base * n + digitValue c) 0

/-- An integer of 64 bits with a sign. -/
def integer? (n : Int) : Option Value :=
  let limit : Int := Nat.pow 2 63
  if -limit ≤ n && n < limit then some (.integer n) else none

/-- A word as an integer: decimal with an optional sign, or with a base and no sign. -/
def readInteger? : List Char → Option Value
  | '0' :: 'x' :: digits => based 16 digits
  | '0' :: 'o' :: digits => based 8 digits
  | '0' :: 'b' :: digits => based 2 digits
  | cs =>
    let (negative, digits) := Decimal.splitSign cs
    if isWhole digits then
      let n : Int := runValue 10 digits
      integer? (if negative then -n else n)
    else none
where
  based (base : Nat) (digits : List Char) : Option Value :=
    if isRun (isDigitOf base) digits then integer? (runValue base digits) else none

/-- The exponent of a float: nothing, or a letter `e`, an optional sign and digits. -/
def isExponent : List Char → Bool
  | [] => true
  | _ :: rest => isRun Char.isDigit (Decimal.splitSign rest).2

/-- What follows the whole part of a float: a fraction, an exponent, or both. -/
def isFractional : List Char → Bool
  | [] => false
  | '.' :: rest =>
    isRun Char.isDigit (rest.takeWhile fun c => c.toLower != 'e')
      && isExponent (rest.dropWhile fun c => c.toLower != 'e')
  | c :: rest => c.toLower == 'e' && isExponent (c :: rest)

/-- A word as a float. A positive one must not be too large for a double. -/
def readFloat? (cs : List Char) : Option Value :=
  let (negative, body) := Decimal.splitSign cs
  let isNumber := isWhole (body.takeWhile fun c => c.isDigit || c == '_')
    && isFractional (body.dropWhile fun c => c.isDigit || c == '_')
  if body = ['i', 'n', 'f'] || body = ['n', 'a', 'n'] then (Decimal.read? cs).map .float
  else if isNumber then
    match Decimal.read? (cs.filter (· != '_')) with
    | some x => if x.isInf && !negative then none else some (.float x)
    | none => none
  else none

/-- Two digits as a number. -/
def twoDigits? : List Char → Option Nat
  | [a, b] => if a.isDigit && b.isDigit then some (runValue 10 [a, b]) else none
  | _ => none

/-- Two digits with a value in the range. -/
def twoDigitsIn (low high : Nat) (cs : List Char) : Bool :=
  (twoDigits? cs).any fun n => decide (low ≤ n) && decide (n ≤ high)

/-- The number of days of a month. -/
def daysOf (year month : Nat) : Nat :=
  if month = 2 then
    if year % 4 = 0 && (year % 100 != 0 || year % 400 = 0) then 29 else 28
  else if [4, 6, 9, 11].contains month then 30 else 31

/-- A date `YYYY-MM-DD` of the calendar. -/
def isDate : List Char → Bool
  | [y1, y2, y3, y4, '-', m1, m2, '-', d1, d2] =>
    [y1, y2, y3, y4].all Char.isDigit && twoDigitsIn 1 12 [m1, m2]
      && twoDigitsIn 1 (daysOf (runValue 10 [y1, y2, y3, y4]) (runValue 10 [m1, m2])) [d1, d2]
  | _ => false

/-- A time `hh:mm:ss` with optional fractions of a second; a leap second is allowed. -/
def isTime : List Char → Bool
  | h1 :: h2 :: ':' :: m1 :: m2 :: ':' :: s1 :: s2 :: fraction =>
    twoDigitsIn 0 23 [h1, h2] && twoDigitsIn 0 59 [m1, m2] && twoDigitsIn 0 60 [s1, s2]
      && match fraction with
        | [] => true
        | '.' :: digits => !digits.isEmpty && digits.all Char.isDigit
        | _ => false
  | _ => false

/-- An offset `±hh:mm` from universal time. -/
def isOffset : List Char → Bool
  | [_, h1, h2, ':', m1, m2] => twoDigitsIn 0 23 [h1, h2] && twoDigitsIn 0 59 [m1, m2]
  | _ => false

/-- A time with an optional offset. -/
def isTimeWithOffset (cs : List Char) : Bool :=
  let startsOffset (c : Char) : Bool := c == 'Z' || c == 'z' || c == '+' || c == '-'
  let time := cs.takeWhile fun c => !startsOffset c
  match cs.dropWhile fun c => !startsOffset c with
  | [] => isTime time
  | ['Z'] | ['z'] => isTime time
  | offset => isTime time && isOffset offset

/-- A date, a time, or a date and a time with an optional offset. -/
def isDateTime (cs : List Char) : Bool :=
  isDate cs || isTime cs
    || match cs.drop 10 with
      | c :: time => (c == 'T' || c == 't' || c == ' ') && isDate (cs.take 10) && isTimeWithOffset time
      | [] => false

/-- A word as a value. -/
def readWord? (cs : List Char) : Option Value :=
  if cs = ['t', 'r', 'u', 'e'] then some (.boolean true)
  else if cs = ['f', 'a', 'l', 's', 'e'] then some (.boolean false)
  else if isDateTime cs then some .dateTime
  else (readInteger? cs).or (readFloat? cs)

/-- A character of a word. -/
def isWordChar (c : Char) : Bool :=
  c.isAlphanum || c == '_' || c == '+' || c == '-' || c == '.' || c == ':'

/-- The word at the start, and what follows; a blank between a date and a time belongs to it. -/
def spanWord (cs : List Char) : List Char × List Char :=
  let word := cs.takeWhile isWordChar
  match isDate word, cs.dropWhile isWordChar with
  | true, ' ' :: c :: rest =>
    if c.isDigit then
      (word ++ ' ' :: (c :: rest).takeWhile isWordChar, (c :: rest).dropWhile isWordChar)
    else (word, ' ' :: c :: rest)
  | _, rest => (word, rest)

end Simplex.Toml
