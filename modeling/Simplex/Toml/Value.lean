/-!
Values of TOML, and tables that grow key by key without a key being defined twice.
-/
namespace Simplex.Toml

/-- How a table came about, which decides what may be added to it later: nothing to an inline one,
    keys to a dotted one, a header to an implied one. -/
inductive Origin where
  | inline
  | header
  | dotted
  | implied
  deriving DecidableEq, Repr

/-- A value; of dates and times only that they are valid is kept. -/
inductive Value where
  | string (text : String)
  | integer (n : Int)
  | float (x : Float)
  | boolean (b : Bool)
  | dateTime
  | array (items : List Value)
  | table (origin : Origin) (entries : List (String × Value))

/-- Keys with their values, in order of definition. -/
abbrev Table := List (String × Value)

namespace Table

/-- The table with a new value for a key that it has. -/
def replace (t : Table) (key : String) (value : Value) : Table :=
  t.map fun entry => if entry.1 = key then (key, value) else entry

/-- Defines a key below dotted parents, which are made as needed; nothing may be defined twice. -/
def define (t : Table) : (parents : List String) → (key : String) → Value → Option Table
  | [], key, value =>
    match t.lookup key with
    | none => some (t ++ [(key, value)])
    | some _ => none
  | parent :: parents, key, value =>
    match t.lookup parent with
    | none =>
      (define [] parents key value).map fun inner => t ++ [(parent, .table .dotted inner)]
    | some (.table .dotted inner) =>
      (define inner parents key value).map fun inner => t.replace parent (.table .dotted inner)
    | some _ => none

/-- Opens the table of a header, which may be implied so far but not defined. -/
def openHeader (t : Table) : List String → Option Table
  | [] => none
  | [key] =>
    match t.lookup key with
    | none => some (t ++ [(key, .table .header [])])
    | some (.table .implied inner) => some (t.replace key (.table .header inner))
    | some _ => none
  | parent :: path =>
    match t.lookup parent with
    | none => (openHeader [] path).map fun inner => t ++ [(parent, .table .implied inner)]
    | some (.table .inline _) => none
    | some (.table origin inner) =>
      (openHeader inner path).map fun inner => t.replace parent (.table origin inner)
    | some _ => none

/-- Changes the table that a header opened. -/
def modifyAt (change : Table → Option Table) (t : Table) : List String → Option Table
  | [] => change t
  | parent :: path =>
    match t.lookup parent with
    | some (.table origin inner) =>
      (modifyAt change inner path).map fun inner => t.replace parent (.table origin inner)
    | _ => none

end Table

end Simplex.Toml
