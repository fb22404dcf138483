import Simplex.ProblemFile
import Simplex.Toml.Reader

/-!
Problem files as documents of TOML.
-/
namespace Simplex

/-- Why a text is no problem file. -/
inductive FileError where
  | malformed
  | unknownKey (key : String)
  | wrongType (key : String)
  deriving DecidableEq, Repr

/-- The words for a file error. -/
def FileError.message : FileError → String
  | malformed => "malformed document"
  | unknownKey key => "unknown key '" ++ key ++ "'"
  | wrongType key => "value of '" ++ key ++ "' has the wrong type"

namespace ProblemFile
open Toml

/-- A value as a string. -/
def asString? : Value → Option String
  | .string text => some text
  | _ => none

/-- A value as a count. -/
def asNat? : Value → Option Nat
  | .integer (.ofNat n) => some n
  | _ => none

/-- A value as a double; an integer stands for the nearest one. -/
def asFloat? : Value → Option Float
  | .float x => some x
  | .integer (.ofNat n) => some (Decimal.toFloat ⟨n, 0⟩)
  | .integer (.negSucc n) => some (-Decimal.toFloat ⟨n + 1, 0⟩)
  | _ => none

/-- A value as a list of strings. -/
def asStrings? : Value → Option (List String)
  | .array items => items.mapM asString?
  | _ => none

/-- Reads an optional value of a type; a value of another type is an error. -/
def readAs {α : Type} (as? : Value → Option α) (key : String) (value? : Option Value) :
    Except FileError (Option α) :=
  match value? with
  | none => .ok none
  | some value =>
    match as? value with
    | some a => .ok (some a)
    | none => .error (.wrongType key)

/-- Every key of a table must be known. -/
def checkKeys (known : List String) (t : Table) : Except FileError Unit :=
  match t.find? fun entry => !known.contains entry.1 with
  | none => .ok ()
  | some entry => .error (.unknownKey entry.1)

/-- The solver settings: a table, or a list of the values in order. -/
def readSolver : Value → Except FileError SolverSection
  | .table _ t => do
    checkKeys ["max_iterations", "tolerance"] t
    settings (t.lookup "max_iterations") (t.lookup "tolerance")
  | .array items => settings items[0]? items[1]?
  | _ => .error (.wrongType "solver")
where
  settings (maxIterations tolerance : Option Value) : Except FileError SolverSection := do
    pure ⟨← readAs asNat? "max_iterations" maxIterations,
      ← readAs asFloat? "tolerance" tolerance⟩

/-- Reads a problem file. -/
def read (text : String) : Except FileError ProblemFile :=
  match Toml.read? text with
  | none => .error .malformed
  | some t => do
    checkKeys ["direction", "objective", "constraints", "solver"] t
    let direction ← readAs asString? "direction" (t.lookup "direction")
    let objective ← readAs asString? "objective" (t.lookup "objective")
    let constraints ← readAs asStrings? "constraints" (t.lookup "constraints")
    let solver ← match t.lookup "solver" with
      | none => pure ⟨none, none⟩
      | some value => readSolver value
    pure ⟨direction, objective, constraints.getD [], solver⟩

end ProblemFile

end Simplex
