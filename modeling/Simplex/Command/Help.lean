import Simplex.Command.Basic

/-!
The lines of help on the program and on each command.
-/
namespace Simplex.Command

/-- What an option is for, with its default if it has one. -/
def Key.purpose : Key → String
  | objective => "Objective function, e.g. \"x1 - 3x2 + 2x3\""
  | constraint => "Constraint, e.g. \"3x1 - x2 <= 7\" (repeatable; replaces the file's list)"
  | direction => "Optimization direction (min, max)"
  | maxIterations => "Maximum number of pivots before giving up"
  | tolerance => "Numerical tolerance for sign and zero tests"
  | format => "Output format (pretty, json) [default: pretty]"
  | logLevel => "Log filter used when RUST_LOG is not set [default: warn]"
  | logFormat => "Log format (pretty, json) [default: pretty]"

/-- What a flag is for. -/
def Flag.purpose : Flag → String
  | tableaux => "Print every iteration table"
  | help => "Print help"
  | version => "Print version"

/-- What a command does. -/
def about : Command → String
  | solve => "Solve a problem and print the outcome"
  | check => "Parse and frame a problem without solving it"

/-- An argument with its letter, if it has one, and what it is for. -/
structure Entry where
  letter? : Option Char
  title : String
  purpose : String

namespace Entry

/-- The entry of an option. -/
def ofKey (key : Key) : Entry := ⟨key.letter?, key.title, key.purpose⟩

/-- The entry of a flag. -/
def ofFlag (flag : Flag) : Entry := ⟨flag.letter?, flag.title, flag.purpose⟩

/-- The letter and the title. -/
def heading (e : Entry) : String :=
  (match e.letter? with
    | some letter => String.ofList ['-', letter, ',', ' ']
    | none => "    ") ++ e.title

/-- A line for each entry: headings in a column, and beside each one what it is for. -/
def beside (entries : List Entry) : List String :=
  let width := entries.foldl (fun most e => max most e.heading.length) 0
  entries.map fun e =>
    let gap := String.ofList (List.replicate (width - e.heading.length + 2) ' ')
    "  " ++ e.heading ++ gap ++ e.purpose

/-- Two lines for each entry: what it is for stands below its heading. -/
def below (entries : List Entry) : List String :=
  entries.flatMap fun e => ["  " ++ e.heading, "          " ++ e.purpose]

end Entry

/-- The entries of the log, which are known everywhere. -/
def logEntries : List Entry := [.ofKey .logLevel, .ofKey .logFormat]

/-- The entries of a command. -/
def entries : Command → List Entry
  | solve =>
    problemKeys.map .ofKey ++ [.ofKey .format, .ofFlag .tableaux] ++ logEntries ++ [.ofFlag .help]
  | check => problemKeys.map .ofKey ++ logEntries ++ [.ofFlag .help]

/-- The lines of help on the program or on a command. -/
def helpLines : Scope → List String
  | none => [
      "Solve linear programs with the tableau simplex method",
      "",
      "Usage: lpp [OPTIONS] <COMMAND>",
      "",
      "Commands:",
      "  solve  " ++ about solve,
      "  check  " ++ about check,
      "  help   Print this message or the help of the given subcommand(s)",
      "",
      "Options:"] ++ Entry.beside (logEntries ++ [.ofFlag .help, .ofFlag .version])
  | some command => [
      about command,
      "",
      "Usage: lpp " ++ command.word ++ " [OPTIONS] [FILE]",
      "",
      "Arguments:",
      "  [FILE]  TOML problem file",
      "",
      "Options:"] ++ Entry.below (entries command)

end Simplex.Command
