import Simplex.Expression
import Simplex.Text.Order

/-!
Symbols `a1`, `a2`, … for the columns of a tableau, and the table that assigns them to names. The
names are sorted, so a set of names always has the same symbols.
-/
namespace Simplex

/-- A column of the tableau, counted from zero. -/
structure Symbol where
  index : Nat
  deriving DecidableEq, Repr

/-- The symbol as it is written: `a` and its number, counted from one. -/
def Symbol.text (s : Symbol) : String := "a" ++ toString (s.index + 1)

/-- The names that have a column, in ascending order. -/
structure SymbolTable where
  names : List String
  ascending : Text.Ascending names

namespace SymbolTable

/-- The table of the names in a list. -/
def ofNames (names : List String) : SymbolTable :=
  ⟨Text.sortNames names, Text.ascending_sortNames names⟩

/-- The number of names. -/
def size (t : SymbolTable) : Nat := t.names.length

/-- The table has no names. -/
def isEmpty (t : SymbolTable) : Bool := t.names.isEmpty

/-- The symbol of a name, if the table has it. -/
def symbol? (t : SymbolTable) (name : String) : Option Symbol :=
  (t.names.idxOf? name).map Symbol.mk

/-- The name behind a symbol of the table. -/
def name (t : SymbolTable) (s : Symbol) : String := t.names.getD s.index ""

/-- The symbols of the table, in order. -/
def symbols (t : SymbolTable) : List Symbol := (List.range t.size).map Symbol.mk

/-- Adds the coefficient of a term to the entry of its name; a name without a column is passed
    over. -/
def scatter {α : Type} [Scalar α] (t : SymbolTable) (row : List α) (term : Term α) : List α :=
  match t.symbol? term.name with
  | some s => row.modify s.index (· + term.coefficient)
  | none => row

/-- The row of an expression: one entry for each symbol, zero for a name that does not occur. -/
def row {α : Type} [Scalar α] (t : SymbolTable) (e : Expression α) : List α :=
  e.foldl t.scatter (List.replicate t.size 0)

end SymbolTable

end Simplex
