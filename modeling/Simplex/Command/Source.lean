import Simplex.Settings

/-!
Where the problem of a command comes from, and how it is loaded: the file is read first, then the
options are merged into it, then the texts are read as a problem.
-/
namespace Simplex.Command

/-- Where a problem comes from: a file, options, or both. -/
structure Source where
  file : Option String
  options : Options

/-- The texts of files by path; a file that cannot be read has the reason instead. -/
abbrev Files := String → Except String String

/-- What documents say as problem files; a document that is refused has the reason instead. -/
abbrev Documents := String → Except String ProblemFile

/-- Why a source gives no problem. -/
inductive LoadError where
  | input (error : InputError)
  | draft (error : DraftError)

/-- The words for a source that gives no problem. -/
def LoadError.message : LoadError → String
  | input error => "Error: " ++ error.message
  | draft error => "Parse error: " ++ error.message

namespace Source

/-- The problem file at a path. -/
def readFile (documents : Documents) (files : Files) (path : String) :
    Except InputError ProblemFile :=
  match files path with
  | .error reason => .error (.unreadable path reason)
  | .ok text => (documents text).mapError (.invalidFile path)

/-- The input that file and options give together. -/
def input (source : Source) (documents : Documents) (files : Files) : Except InputError Input := do
  let file ← match source.file with
    | some path => readFile documents files path
    | none => pure .empty
  source.options.merge file

/-- The problem of a source, and how to solve it. -/
def load (source : Source) (documents : Documents) (files : Files) :
    Except LoadError (Problem Float × Solver Float) := do
  let input ← (source.input documents files).mapError .input
  let p ← input.draft.build.mapError .draft
  pure (p, input.solver)

end Source

end Simplex.Command
