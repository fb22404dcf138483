import Simplex.Command.Request
import Simplex.Export
import Simplex.Toml.ProblemFile

/-!
The outcome of the program with the readers and writers at hand.
-/
namespace Simplex.Command

/-- Arguments, documents of TOML and JSON as they are read and written here. -/
def libraries : Libraries where
  parse := Request.ofArguments
  documents text := (ProblemFile.read text).mapError FileError.message
  writeReport body := .ok (Export.report body).text
  writeFailure body := .ok (Export.failure body).text

/-- The outcome of the program for its arguments. -/
def run (files : Files) (arguments : List String) : Outcome := libraries.run files arguments

end Simplex.Command
