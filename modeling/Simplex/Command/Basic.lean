/-!
The commands of the program, and the options and flags that each of them knows.
-/
namespace Simplex

/-- What the program does with a problem. -/
inductive Command where
  | solve
  | check
  deriving DecidableEq, Repr

namespace Command

/-- The word for a command. -/
def word : Command → String
  | solve => "solve"
  | check => "check"

/-- The command of a word. -/
def ofWord? : String → Option Command
  | "solve" => some solve
  | "check" => some check
  | _ => none

/-- An option, which has a value. -/
inductive Key where
  | objective
  | constraint
  | direction
  | maxIterations
  | tolerance
  | format
  | logLevel
  | logFormat
  deriving DecidableEq, Repr

namespace Key

/-- The long name of an option. -/
def name : Key → String
  | objective => "objective"
  | constraint => "constraint"
  | direction => "direction"
  | maxIterations => "max-iterations"
  | tolerance => "tolerance"
  | format => "format"
  | logLevel => "log-level"
  | logFormat => "log-format"

/-- The name of the value of an option. -/
def valueName : Key → String
  | objective => "OBJECTIVE"
  | constraint => "CONSTRAINTS"
  | direction => "DIRECTION"
  | maxIterations => "MAX_ITERATIONS"
  | tolerance => "TOLERANCE"
  | format => "FORMAT"
  | logLevel => "LOG_LEVEL"
  | logFormat => "LOG_FORMAT"

/-- An option with its value, as messages name it. -/
def title (key : Key) : String := "--" ++ key.name ++ " <" ++ key.valueName ++ ">"

/-- The letter of an option that has one. -/
def letter? : Key → Option Char
  | objective => some 'o'
  | constraint => some 'c'
  | direction => some 'd'
  | format => some 'f'
  | _ => none

/-- A value of the option may start with a hyphen, as the text of an expression may. -/
def allowsHyphen (key : Key) : Bool := key == objective || key == constraint

/-- The option may be given again. -/
def isRepeatable (key : Key) : Bool := key == constraint

end Key

/-- A flag, which has no value. -/
inductive Flag where
  | tableaux
  | help
  | version
  deriving DecidableEq, Repr

/-- The long name of a flag. -/
def Flag.name : Flag → String
  | tableaux => "tableaux"
  | help => "help"
  | version => "version"

/-- A flag as messages name it. -/
def Flag.title (flag : Flag) : String := "--" ++ flag.name

/-- The letter of a flag that has one. -/
def Flag.letter? : Flag → Option Char
  | tableaux => none
  | help => some 'h'
  | version => some 'V'

/-- The place of an argument: before the command, or behind it. -/
abbrev Scope := Option Command

/-- The options that describe a problem and how to solve it. -/
def problemKeys : List Key := [.objective, .constraint, .direction, .maxIterations, .tolerance]

/-- The options known in a scope; those of the log are known everywhere. -/
def keysIn : Scope → List Key
  | none => [.logLevel, .logFormat]
  | some check => problemKeys ++ [.logLevel, .logFormat]
  | some solve => problemKeys ++ [.format, .logLevel, .logFormat]

/-- The flags known in a scope. -/
def flagsIn : Scope → List Flag
  | none => [.help, .version]
  | some check => [.help]
  | some solve => [.tableaux, .help]

/-- Why arguments make no request. -/
inductive UsageError where
  | unexpected (argument : String)
  | missingValue (option : String)
  | unneededValue (flag value : String)
  | repeated (argument : String)
  | invalidValue (option value reason : String)
  | unknownCommand (word : String)
  | missingCommand
  deriving DecidableEq, Repr

/-- The words for a usage error. -/
def UsageError.message : UsageError → String
  | unexpected argument => "unexpected argument '" ++ argument ++ "' found"
  | missingValue option => "a value is required for '" ++ option ++ "' but none was supplied"
  | unneededValue flag value =>
    "unexpected value '" ++ value ++ "' for '" ++ flag ++ "' found; no more were expected"
  | repeated argument => "the argument '" ++ argument ++ "' cannot be used multiple times"
  | invalidValue option value reason =>
    "invalid value '" ++ value ++ "' for '" ++ option ++ "': " ++ reason
  | unknownCommand word => "unrecognized subcommand '" ++ word ++ "'"
  | missingCommand => "'lpp' requires a subcommand but one was not provided"

end Command

end Simplex
