import Simplex.Command.Help
import Simplex.Command.Item
import Simplex.Command.Program

/-!
Requests to the program, read from its arguments from left to right.
-/
namespace Simplex.Command

/-- The file that a request reads, if there is one. -/
def Request.file? : Request → Option String
  | solve source _ _ | check source => source.file

/-- The greatest count that an option can have. -/
def maxCount : Nat := Nat.pow 2 64 - 1

/-- A count: digits, with or without a plus before them. -/
def readCount (text : String) : Except String Nat :=
  let digits := match text.toList with
    | '+' :: digits => digits
    | digits => digits
  if text.isEmpty then .error "cannot parse integer from empty string"
  else if digits.isEmpty || !digits.all Char.isDigit then .error "invalid digit found in string"
  else
    let n := Decimal.natOfDigits digits
    if n ≤ maxCount then .ok n else .error "number too large to fit in target type"

/-- A double. -/
def readNumber (text : String) : Except String Float :=
  match Decimal.read? text.toList with
  | some x => .ok x
  | none =>
    .error (if text.isEmpty then "cannot parse float from empty string" else "invalid float literal")

/-- How arguments end the program instead of making a request. -/
inductive Ending where
  | help (topic : Scope)
  | version
  | usage (error : UsageError)

/-- The outcome of the program. -/
def Ending.outcome : Ending → Outcome
  | help topic => ⟨.success, Listing.lines (helpLines topic), ""⟩
  | version => ⟨.success, Listing.lines ["lpp 0.1.0"], ""⟩
  | usage error =>
    ⟨.invalidInput, "",
      Listing.lines ["error: " ++ error.message, "", "For more information, try '--help'."]⟩

/-- What the arguments up to some point have said. -/
structure Reading where
  command : Scope
  seen : List Key
  source : Source
  format : String
  withTableaux : Bool

namespace Reading

/-- Nothing is said so far. -/
def start : Reading where
  command := none
  seen := []
  source := ⟨none, ⟨none, [], none, none, none⟩⟩
  format := "pretty"
  withTableaux := false

/-- Changes the options of the problem. -/
def withOptions (r : Reading) (change : Options → Options) : Reading :=
  { r with source := { r.source with options := change r.source.options } }

/-- Takes the value of an option; those of the log have no part in the outcome. -/
def set (r : Reading) (key : Key) (value : String) : Except UsageError Reading :=
  match key with
  | .objective => .ok (r.withOptions fun o => { o with objective := some value })
  | .constraint => .ok (r.withOptions fun o => { o with constraints := o.constraints ++ [value] })
  | .direction => .ok (r.withOptions fun o => { o with direction := some value })
  | .maxIterations => do
    let n ← (readCount value).mapError (.invalidValue key.title value)
    pure (r.withOptions fun o => { o with maxIterations := some n })
  | .tolerance => do
    let x ← (readNumber value).mapError (.invalidValue key.title value)
    pure (r.withOptions fun o => { o with tolerance := some x })
  | .format => .ok { r with format := value }
  | .logLevel | .logFormat => .ok r

/-- Takes an option, which may be given once only unless it is repeatable. -/
def addOption (r : Reading) (key : Key) (value : String) : Except UsageError Reading :=
  if r.seen.contains key && !key.isRepeatable then .error (.repeated key.title)
  else { r with seen := key :: r.seen }.set key value

/-- Takes the file, of which a command has one at most; its path is not empty. -/
def addFile (r : Reading) (path : String) : Except UsageError Reading :=
  if r.command.isNone || r.source.file.isSome then .error (.unexpected path)
  else if path.isEmpty then .error (.missingValue "[FILE]")
  else .ok { r with source := { r.source with file := some path } }

/-- The request once everything is said. -/
def finish (r : Reading) : Except Ending Request :=
  match r.command with
  | some .solve => .ok (.solve r.source r.format r.withTableaux)
  | some .check => .ok (.check r.source)
  | none => .error (.usage .missingCommand)

/-- The end of the program where help is asked for by a command: on itself or on a command. -/
def helpOn : List String → Ending
  | [] | ["help"] => .help none
  | [word] =>
    match ofWord? word with
    | some command => .help (some command)
    | none => .usage (.unknownCommand word)
  | _ :: word :: _ => .usage (.unknownCommand word)

/-- Takes items one after another; help, the version or an error end the reading. Options before
    the command count apart from those behind it. -/
def read (r : Reading) : List Item → Except Ending Request
  | [] => r.finish
  | .option key value :: rest => do (← (r.addOption key value).mapError .usage).read rest
  | .operand path :: rest => do (← (r.addFile path).mapError .usage).read rest
  | .command command :: rest => { r with command := some command, seen := [] }.read rest
  | .flag .help :: _ => .error (.help r.command)
  | .flag .version :: _ => .error .version
  | .flag .tableaux :: rest =>
    if r.withTableaux then .error (.usage (.repeated Flag.tableaux.title))
    else { r with withTableaux := true }.read rest
  | .helpOn words :: _ => .error (helpOn words)
  | .fault error :: _ => .error (.usage error)

end Reading

/-- The request that arguments make, or the outcome of arguments that make none. -/
def Request.ofArguments (arguments : List String) : Except Outcome Request :=
  (Reading.start.read (items none arguments)).mapError Ending.outcome

end Simplex.Command
