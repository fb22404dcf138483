import Simplex.Command.Outcome

/-!
The program: it reads the problem file, writes the outcome and exits with its status.
-/
namespace Simplex.Command

/-- The text of a file, or the reason why it cannot be read. -/
def readText (path : String) : IO (Except String String) := do
  try
    return .ok (← IO.FS.readFile path)
  catch e =>
    return .error (toString e)

/-- Reads the file that arguments name, so that its text can be asked for. -/
def readFiles (arguments : List String) : IO Files := do
  match (libraries.parse arguments).toOption.bind Request.file? with
  | some path =>
    let text ← readText path
    return fun _ => text
  | none => return fun _ => .error "no file is named"

end Simplex.Command

open Simplex.Command in
/-- Runs the program. -/
def main (arguments : List String) : IO UInt32 := do
  let outcome := run (← readFiles arguments) arguments
  (← IO.getStdout).putStr outcome.output
  (← IO.getStderr).putStr outcome.errors
  return outcome.exit.code.toUInt32
