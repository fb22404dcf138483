import Simplex.Command.Basic

/-!
The items that arguments consist of: options with their values, flags, operands and the command.
-/
namespace Simplex.Command

/-- An argument by its hyphens. -/
inductive Shape where
  | separator
  | long (name : String) (value : Option String)
  | short (letter : Char) (rest : List Char)
  | word
  deriving DecidableEq, Repr

/-- The shape of an argument; a hyphen alone is a word. -/
def Shape.ofArgument (argument : String) : Shape :=
  match argument.toList with
  | ['-', '-'] => separator
  | '-' :: '-' :: body =>
    let value := match body.dropWhile (· != '=') with
      | [] => none
      | _ :: value => some (String.ofList value)
    long (String.ofList (body.takeWhile (· != '='))) value
  | '-' :: letter :: rest => short letter rest
  | _ => word

/-- The value behind the letter of an option in the same argument, with or without an equals
    sign. -/
def attached? : List Char → Option String
  | [] => none
  | '=' :: value => some (String.ofList value)
  | value => some (String.ofList value)

/-- What an argument announces, with the value attached to it. -/
inductive Head where
  | option (key : Key) (value : Option String)
  | flag (flag : Flag)
  | fault (error : UsageError)
  | separator
  | word
  deriving DecidableEq, Repr

/-- The head of an argument in a scope. What stands behind the letter of a flag does not matter,
    since a flag with a letter ends the reading. -/
def Head.ofArgument (scope : Scope) (argument : String) : Head :=
  match Shape.ofArgument argument with
  | .separator => separator
  | .word => word
  | .long name value =>
    match (keysIn scope).find? (·.name == name) with
    | some key => option key value
    | none =>
      match (flagsIn scope).find? (·.name == name) with
      | some f =>
        match value with
        | some value => fault (.unneededValue f.title value)
        | none => flag f
      | none => fault (.unexpected ("--" ++ name))
  | .short letter rest =>
    match (keysIn scope).find? (·.letter? == some letter) with
    | some key => option key (attached? rest)
    | none =>
      match (flagsIn scope).find? (·.letter? == some letter) with
      | some f => flag f
      | none => fault (.unexpected (String.ofList ['-', letter]))

/-- An argument may be the value of the option before it. -/
def Key.accepts (key : Key) (argument : String) : Bool :=
  key.allowsHyphen || Shape.ofArgument argument == .word

/-- What an argument says, an option together with its value. -/
inductive Item where
  | option (key : Key) (value : String)
  | flag (flag : Flag)
  | operand (text : String)
  | command (command : Command)
  | helpOn (words : List String)
  | fault (error : UsageError)
  deriving DecidableEq, Repr

/-- The items of arguments. Before the command a word is the command itself; behind a separator
    every argument is an operand. -/
def items (scope : Scope) : List String → List Item
  | [] => []
  | argument :: rest =>
    match Head.ofArgument scope argument with
    | .option key (some value) => .option key value :: items scope rest
    | .option key none =>
      match rest with
      | [] => [.fault (.missingValue key.title)]
      | value :: rest =>
        if key.accepts value then .option key value :: items scope rest
        else [.fault (.missingValue key.title)]
    | .flag flag => .flag flag :: items scope rest
    | .fault error => [.fault error]
    | .separator => rest.map .operand
    | .word =>
      if scope.isSome then .operand argument :: items scope rest
      else if argument = "help" then [.helpOn rest]
      else
        match ofWord? argument with
        | some command => .command command :: items (some command) rest
        | none => [.fault (.unknownCommand argument)]

end Simplex.Command
