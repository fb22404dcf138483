import Simplex.Decimal.Printer
import Simplex.Text.Order

/-!
JSON values and their text over several lines, in which each level is indented by two blanks.
-/
namespace Simplex

/-- A JSON value; an object keeps its members in order. -/
inductive Json where
  | null
  | boolean (value : Bool)
  | count (value : Nat)
  | number (value : Float)
  | string (text : String)
  | array (items : List Json)
  | object (members : List (String × Json))

namespace Json

/-- A number; one that is not finite has no text in JSON and becomes null. -/
def ofFloat (x : Float) : Json := if x.isFinite then number x else null

/-- A value that may be missing; nothing becomes null. -/
def ofOption {α : Type} (encode : α → Json) : Option α → Json
  | none => null
  | some a => encode a

/-- A list of values. -/
def ofList {α : Type} (encode : α → Json) (values : List α) : Json := array (values.map encode)

/-- A digit of a character's number in base sixteen. -/
def hexDigit (n : Nat) : Char := (Nat.toDigits 16 (n % 16)).headD '0'

/-- A character inside quotes: the quote, the backslash and control characters are escaped. -/
def escape (c : Char) : List Char :=
  match c with
  | '"' => ['\\', '"']
  | '\\' => ['\\', '\\']
  | '\x08' => ['\\', 'b']
  | '\x0c' => ['\\', 'f']
  | '\n' => ['\\', 'n']
  | '\r' => ['\\', 'r']
  | '\t' => ['\\', 't']
  | c =>
    if c.toNat < 32 then ['\\', 'u', '0', '0', hexDigit (c.toNat / 16), hexDigit c.toNat] else [c]

/-- A text in quotes. -/
def quoted (text : String) : String :=
  String.ofList ('"' :: text.toList.flatMap escape ++ ['"'])

/-- The blanks before a line at some depth. -/
def indent (depth : Nat) : String := String.ofList (List.replicate (2 * depth) ' ')

/-- Texts one a line between brackets, or the brackets alone. -/
def enclose (depth : Nat) (opening closing : String) (texts : List String) : String :=
  if texts.isEmpty then opening ++ closing
  else
    opening ++ "\n" ++ ",\n".intercalate (texts.map (indent (depth + 1) ++ ·)) ++ "\n"
      ++ indent depth ++ closing

mutual

/-- The text of a value whose first line stands at some depth. -/
def textAt (depth : Nat) : Json → String
  | null => "null"
  | boolean value => if value then "true" else "false"
  | count value => toString value
  | number value => Decimal.jsonText value
  | string text => quoted text
  | array items => enclose depth "[" "]" (itemTexts (depth + 1) items)
  | object members => enclose depth "\x7b" "\x7d" (memberTexts (depth + 1) members)

/-- The texts of the items of an array. -/
def itemTexts (depth : Nat) : List Json → List String
  | [] => []
  | item :: rest => textAt depth item :: itemTexts depth rest

/-- The texts of the members of an object. -/
def memberTexts (depth : Nat) : List (String × Json) → List String
  | [] => []
  | (key, value) :: rest => (quoted key ++ ": " ++ textAt depth value) :: memberTexts depth rest

end

/-- The text of a value. -/
def text (value : Json) : String := value.textAt 0

/-- Puts a member before the first one whose key does not come before its own. -/
def insertMember (key : String) (value : Json) : List (String × Json) → List (String × Json)
  | [] => [(key, value)]
  | (k, v) :: rest =>
    if Text.Precedes k key then (k, v) :: insertMember key value rest
    else (key, value) :: (k, v) :: rest

mutual

/-- The value with the members of every object in ascending order of their keys. -/
def sortKeys : Json → Json
  | array items => array (sortItems items)
  | object members => object (sortMembers members)
  | value => value

/-- Sorts the keys of every item. -/
def sortItems : List Json → List Json
  | [] => []
  | item :: rest => item.sortKeys :: sortItems rest

/-- Sorts members by their keys, and the keys of every member. -/
def sortMembers : List (String × Json) → List (String × Json)
  | [] => []
  | (key, value) :: rest => insertMember key value.sortKeys (sortMembers rest)

end

end Json

end Simplex
