import Simplex.Assignment
import Simplex.Command.Source
import Simplex.Listing

/-!
What the program puts out for a request, and the status that it exits with. How arguments are read,
how documents are read and how JSON is written is left to libraries.
-/
namespace Simplex.Command

/-- How a run of the program ended. -/
inductive Exit where
  | success
  | unbounded
  | invalidInput
  | framingFailed
  | calculationFailed
  | panicked
  deriving DecidableEq, Repr

/-- The exit status. -/
def Exit.code : Exit → Nat
  | success => 0
  | unbounded => 1
  | invalidInput => 2
  | framingFailed => 3
  | calculationFailed => 4
  | panicked => 101

/-- The exit of a solve that finished. -/
def Exit.ofReport (r : Report Float) : Exit := if r.isOptimal then success else unbounded

/-- The exit of a solve that did not finish. -/
def Exit.ofFailure : SolveError Float → Exit
  | .framing _ => framingFailed
  | .calculation _ _ | .iterationLimit _ _ => calculationFailed

/-- What a run puts out, and how it ended. -/
structure Outcome where
  exit : Exit
  output : String
  errors : String
  deriving DecidableEq, Repr

/-- What the program is asked for: to solve a problem, with the name of a format and every tableau or
    not, or to check one. -/
inductive Request where
  | solve (source : Source) (format : String) (withTableaux : Bool)
  | check (source : Source)

/-- How the outcome of a solve is written. -/
inductive Format where
  | plain
  | json
  deriving DecidableEq, Repr

/-- The format of a name; every other name stands for the plain one. -/
def Format.ofName (name : String) : Format := if name = "json" then json else plain

/-! ### Libraries -/

/-- What JSON says of a solve that finished: its report, and the value of every variable of the
    problem. -/
structure ReportBody where
  report : Report Float
  values : Assignment Float

/-- The body of a report on a problem; without a solution every value is zero. -/
def ReportBody.ofReport (p : Problem Float) (r : Report Float) : ReportBody where
  report := r
  values := .ofList (p.variableNames.map fun name =>
    (name, (r.solution.map fun s => s.value name).getD 0))

/-- What JSON says of a solve that did not finish. -/
structure FailureBody where
  termination : Termination
  message : String
  error : String
  tableaux : List (Tableau Float)

/-- The body of a failure. -/
def FailureBody.ofError (e : SolveError Float) : FailureBody :=
  ⟨e.termination, e.termination.message, e.message, e.tableaux⟩

/-- Why the body of a failure has no text: it is refused, or putting it together stops the program. -/
inductive WriteError where
  | refused (reason : String)
  | panicked (message : String)

/-- What the program leaves to libraries. -/
structure Libraries where
  /-- The request that arguments make. Where they make none, as when they ask for help, the program
      ends with an outcome. -/
  parse : List String → Except Outcome Request
  /-- The reader of documents. -/
  documents : Documents
  /-- The text of a report in JSON, or the reason why there is none. -/
  writeReport : ReportBody → Except String String
  /-- The text of a failure in JSON. -/
  writeFailure : FailureBody → Except WriteError String

/-! ### Outcomes -/

namespace Outcome

/-- The outcome of a source that gives no problem. -/
def ofLoadError (e : LoadError) : Outcome := ⟨.invalidInput, "", Listing.lines [e.message]⟩

/-- The outcome of a body that is refused. -/
def unwritten (exit : Exit) (reason : String) : Outcome :=
  ⟨exit, "", Listing.lines ["Error serializing report: " ++ reason]⟩

/-- The outcome of a solve that finished. In JSON every tableau is shown, and a report that is refused
    counts like a calculation that failed. -/
def ofReport (lib : Libraries) (p : Problem Float) (r : Report Float) (format : Format)
    (withTableaux : Bool) : Outcome :=
  match format with
  | .plain => ⟨.ofReport r, Listing.report r p.variableNames withTableaux, ""⟩
  | .json =>
    match lib.writeReport (.ofReport p r) with
    | .ok text => ⟨.ofReport r, text ++ "\n", ""⟩
    | .error reason => unwritten .calculationFailed reason

/-- The outcome of a solve that did not finish. In JSON the error is part of the output. -/
def ofFailure (lib : Libraries) (e : SolveError Float) (format : Format) (withTableaux : Bool) :
    Outcome :=
  match format with
  | .plain =>
    let tableaux :=
      if withTableaux && !e.tableaux.isEmpty then Listing.tableaux e.tableaux ++ "\n" else ""
    ⟨.ofFailure e, tableaux ++ Listing.lines ["Status: ERROR", e.termination.message],
      Listing.lines [e.message]⟩
  | .json =>
    match lib.writeFailure (.ofError e) with
    | .ok text => ⟨.ofFailure e, text ++ "\n", ""⟩
    | .error (.refused reason) => unwritten (.ofFailure e) reason
    | .error (.panicked message) => ⟨.panicked, "", Listing.lines [message]⟩

/-- Solves a problem. -/
def ofSolve (lib : Libraries) (p : Problem Float) (solver : Solver Float) (format : Format)
    (withTableaux : Bool) : Outcome :=
  match solver.solve p with
  | .ok r => ofReport lib p r format withTableaux
  | .error e => ofFailure lib e format withTableaux

/-- Frames a problem without solving it, and shows its standard form. -/
def ofCheck (p : Problem Float) : Outcome :=
  match Session.firstHistory p with
  | .error e =>
    ⟨.framingFailed, "",
      Listing.lines ["✗ problem has errors:", "  Framing error: " ++ e.message]⟩
  | .ok h =>
    ⟨.success, Listing.lines [
        "✓ problem is valid",
        "  " ++ toString p.variableNames.length ++ " variables",
        "  " ++ toString p.constraints.length ++ " constraints",
        ""]
      ++ Listing.problem p
      ++ Listing.lines ["", "Standard form:"]
      ++ Listing.standardForm h.form, ""⟩

end Outcome

/-- Does what a request asks for. -/
def Request.perform (lib : Libraries) (files : Files) : Request → Outcome
  | solve source format withTableaux =>
    match source.load lib.documents files with
    | .ok (p, solver) => .ofSolve lib p solver (.ofName format) withTableaux
    | .error e => .ofLoadError e
  | check source =>
    match source.load lib.documents files with
    | .ok (p, _) => .ofCheck p
    | .error e => .ofLoadError e

/-- The outcome of the program for its arguments. -/
def Libraries.run (lib : Libraries) (files : Files) (arguments : List String) : Outcome :=
  match lib.parse arguments with
  | .ok request => request.perform lib files
  | .error outcome => outcome

end Simplex.Command
