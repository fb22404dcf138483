import Simplex.Arithmetic
import Simplex.Text.Order

/-!
Values of variables by name, in ascending order of the names.
-/
namespace Simplex

/-- Names with their values, in ascending order of the names. -/
structure Assignment (α : Type) where
  entries : List (String × α)
  deriving DecidableEq, Repr

namespace Assignment

variable {α : Type}

/-- Puts a value at the place of its name, in place of an earlier value. -/
def insertEntry (name : String) (value : α) : List (String × α) → List (String × α)
  | [] => [(name, value)]
  | (n, v) :: rest =>
    if name = n then (name, value) :: rest
    else if Text.Precedes name n then (name, value) :: (n, v) :: rest
    else (n, v) :: insertEntry name value rest

/-- The assignment of a list of entries; a later value of a name replaces an earlier one. -/
def ofList (entries : List (String × α)) : Assignment α :=
  ⟨entries.foldl (fun sorted (name, value) => insertEntry name value sorted) []⟩

/-- The value of a name, if it has one. -/
def get? (a : Assignment α) (name : String) : Option α := a.entries.lookup name

/-- The name has a value. -/
def contains (a : Assignment α) (name : String) : Bool := (a.get? name).isSome

/-- The value of a name, zero if it has none. -/
def value [Scalar α] (a : Assignment α) (name : String) : α := (a.get? name).getD 0

end Assignment

end Simplex
