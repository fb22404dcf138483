import Simplex.Expression
import Simplex.Decimal.Reader
import Simplex.Text.Name

/-!
Reading expressions such as `x1-3x2+2.5e1x3+4` from texts without blanks. A term is a number
literal or a sign or neither, then a name; a term without a name is a constant. Positions count
the bytes of UTF-8.
-/
namespace Simplex.Expression

/-- Why a text is no expression. -/
inductive Issue where
  | empty
  | unexpectedChar (found : Char) (position : Nat)
  | danglingSign (position : Nat)
  | invalidNumber (literal : String)
  deriving DecidableEq, Repr

/-- The words for an issue. -/
def Issue.message : Issue → String
  | empty => "expression is empty"
  | unexpectedChar found position =>
    "unexpected character '" ++ found.toString ++ "' at position " ++ toString position
  | danglingSign position =>
    "sign at position " ++ toString position ++ " is not followed by a variable"
  | invalidNumber literal => "invalid number '" ++ literal ++ "'"

/-- A plus or a minus. -/
def isSign (c : Char) : Bool := c == '+' || c == '-'

/-- The number of bytes of the characters. -/
def byteLength (cs : List Char) : Nat := cs.foldr (fun c n => c.utf8Size + n) 0

/-- The sign at the start, if there is one, and what follows. -/
def spanSign : List Char → List Char × List Char
  | [] => ([], [])
  | c :: rest => if isSign c then ([c], rest) else ([], c :: rest)

/-- A point and the digits behind it, if there are any, and what follows. -/
def spanFraction : List Char → List Char × List Char
  | [] => ([], [])
  | c :: rest =>
    let digits := rest.takeWhile Char.isDigit
    if c == '.' && !digits.isEmpty then (c :: digits, rest.dropWhile Char.isDigit)
    else ([], c :: rest)

/-- A letter `e`, an optional sign and the digits behind it, if there are any, and what follows;
    without digits the letter begins a name. -/
def spanExponent : List Char → List Char × List Char
  | [] => ([], [])
  | c :: rest =>
    let (sign, afterSign) := spanSign rest
    let digits := afterSign.takeWhile Char.isDigit
    if (c == 'e' || c == 'E') && !digits.isEmpty then
      (c :: sign ++ digits, afterSign.dropWhile Char.isDigit)
    else ([], c :: rest)

/-- The longest literal at the start, `[+-]?D+(.D+)?([eE][+-]?D+)?`, and what follows; nothing if
    none begins there. -/
def spanLiteral (cs : List Char) : List Char × List Char :=
  let (sign, afterSign) := spanSign cs
  let whole := afterSign.takeWhile Char.isDigit
  if whole.isEmpty then ([], cs)
  else
    let (fraction, afterFraction) := spanFraction (afterSign.dropWhile Char.isDigit)
    let (exponent, rest) := spanExponent afterFraction
    (sign ++ whole ++ fraction ++ exponent, rest)

/-- How a term begins: with a literal, a sign alone, or neither. -/
inductive Lead where
  | literal (chars : List Char)
  | sign (c : Char)
  | absent
  deriving DecidableEq, Repr

namespace Lead

/-- The beginning of a term, and what follows. -/
def span (cs : List Char) : Lead × List Char :=
  match spanLiteral cs with
  | (c :: digits, rest) => (literal (c :: digits), rest)
  | ([], _) =>
    match spanSign cs with
    | (c :: _, rest) => (sign c, rest)
    | ([], _) => (absent, cs)

/-- The characters that the beginning is written with. -/
def chars : Lead → List Char
  | literal cs => cs
  | sign c => [c]
  | absent => []

/-- The beginning is a sign alone. -/
def isBareSign : Lead → Bool
  | sign _ => true
  | _ => false

/-- The coefficient: the value of the literal, else one with the sign. -/
def coefficient : Lead → Except Issue Float
  | literal cs =>
    match Decimal.read? cs with
    | some x => .ok x
    | none => .error (.invalidNumber (String.ofList cs))
  | sign c => .ok (if c == '-' then -1 else 1)
  | absent => .ok 1

end Lead

/-- The issue of a text that goes on where it must not. -/
def unexpected (position : Nat) : List Char → Issue
  | [] => .empty
  | c :: _ => .unexpectedChar c position

/-- A term may end here: at the end of the text or before a sign. -/
def endsTerm : List Char → Bool
  | [] => true
  | c :: _ => isSign c

/-- Reads the term that begins at a position, and gives the position where it ends and what follows
    it. -/
def readTerm (position : Nat) (cs : List Char) :
    Except Issue (Term Float × Nat × List Char) := do
  let (lead, afterLead) := Lead.span cs
  let name := afterLead.takeWhile Text.isNameChar
  let rest := afterLead.dropWhile Text.isNameChar
  let stop := position + byteLength (lead.chars ++ name)
  let coefficient ← lead.coefficient
  if (lead.chars ++ name).isEmpty then throw (unexpected stop rest)
  else if !endsTerm rest then throw (unexpected stop rest)
  else if lead.isBareSign && name.isEmpty then throw (.danglingSign position)
  else pure ({ coefficient, name := String.ofList name }, stop, rest)

theorem spanSign_append (cs : List Char) : (spanSign cs).1 ++ (spanSign cs).2 = cs := by
  cases cs with
  | nil => rfl
  | cons c rest => by_cases h : isSign c <;> simp [spanSign, h]

theorem spanFraction_append (cs : List Char) : (spanFraction cs).1 ++ (spanFraction cs).2 = cs := by
  cases cs with
  | nil => rfl
  | cons c rest => simp only [spanFraction]; split <;> simp

theorem spanExponent_append (cs : List Char) : (spanExponent cs).1 ++ (spanExponent cs).2 = cs := by
  cases cs with
  | nil => rfl
  | cons c rest =>
    simp only [spanExponent]
    split
    · simp [spanSign_append]
    · simp

/-- A literal and what follows it make up the text. -/
theorem spanLiteral_append (cs : List Char) : (spanLiteral cs).1 ++ (spanLiteral cs).2 = cs := by
  simp only [spanLiteral]
  split
  · rfl
  · simp [spanExponent_append, spanFraction_append, spanSign_append]

/-- The beginning of a term and what follows it make up the text. -/
theorem Lead.span_append (cs : List Char) : (Lead.span cs).1.chars ++ (Lead.span cs).2 = cs := by
  have literal := spanLiteral_append cs
  have sign := spanSign_append cs
  unfold Lead.span
  split
  · rename_i c digits rest h
    simpa [h, Lead.chars] using literal
  · cases cs with
    | nil => rfl
    | cons c rest => by_cases h : isSign c <;> simp [spanSign, h, Lead.chars]

/-- A term takes up at least one character. -/
theorem readTerm_length_lt {position stop : Nat} {cs rest : List Char} {t : Term Float}
    (h : readTerm position cs = .ok (t, stop, rest)) : rest.length < cs.length := by
  have whole := congrArg List.length (Lead.span_append cs)
  have split := congrArg List.length
    (List.takeWhile_append_dropWhile (p := Text.isNameChar) (l := (Lead.span cs).2))
  simp only [readTerm] at h
  generalize hc : (Lead.span cs).1.coefficient = c at h
  cases c with
  | error e => simp [bind, Except.bind] at h
  | ok x =>
    simp only [bind, Except.bind, pure, Except.pure, throw, throwThe, MonadExceptOf.throw] at h
    split at h
    · simp at h
    · rename_i consumed
      split at h
      · simp at h
      · split at h
        · simp at h
        · simp only [Except.ok.injEq, Prod.mk.injEq] at h
          obtain ⟨_, _, rfl⟩ := h
          have : 0 < ((Lead.span cs).1.chars ++
              (Lead.span cs).2.takeWhile Text.isNameChar).length := by
            rw [List.length_pos_iff]
            simpa using consumed
          simp only [List.length_append] at whole split this
          omega

/-- Reads the terms from a position to the end of the text. -/
def readTerms (position : Nat) (cs : List Char) : Except Issue (Expression Float) :=
  if cs.isEmpty then .ok []
  else
    match h : readTerm position cs with
    | .error issue => .error issue
    | .ok (t, stop, rest) =>
      have := readTerm_length_lt h
      (readTerms stop rest).map (t :: ·)
termination_by cs.length

/-- Reads a whole text without blanks as an expression. -/
def read (text : String) : Except Issue (Expression Float) :=
  if text.isEmpty then .error .empty else readTerms 0 text.toList

end Simplex.Expression
