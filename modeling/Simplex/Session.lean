import Simplex.Solution
import Simplex.Tableau.Pivot

/-!
Sessions: one attempt to solve a problem, which keeps every tableau that it makes. A session is
framed, then stepped until it is optimal or unbounded.
-/
namespace Simplex

/-- What one step did. -/
inductive Step where
  | pivoted (iteration : Nat)
  | optimal
  | unbounded (column : Symbol)
  deriving DecidableEq, Repr

/-- The tableaux made so far from a standard form; the earlier ones are kept newest first. -/
structure History (α : Type) where
  form : StandardForm α
  earlier : List (Tableau α)
  latest : Tableau α

namespace History

variable {α : Type}

/-- All tableaux, in order of iteration. -/
def tableaux (h : History α) : List (Tableau α) := h.earlier.reverse ++ [h.latest]

/-- Evaluates the latest tableau, looks for a pivot, and makes the next tableau around it. The next
    tableau must have a greater iteration and a unit basis. -/
def advance [Scalar α] (h : History α) (tolerance : α) :
    History α × Except (CalculationError α) Step :=
  let (current, choice) := h.latest.evaluate.selectPivot tolerance
  let inspected : History α := { h with latest := current }
  match choice with
  | .error e => (inspected, .error e)
  | .ok .optimal => (inspected, .ok .optimal)
  | .ok (.unbounded column) => (inspected, .ok (.unbounded column))
  | .ok (.pivot _) =>
    match current.pivoted h.form.symbols with
    | .error e => (inspected, .error e)
    | .ok next =>
      if next.iteration ≤ current.iteration then
        (inspected, .error (.iterationNotAdvanced current.iteration next.iteration))
      else
        match next.unitBasisViolation? tolerance with
        | some row => (inspected, .error (.brokenBasis next.iteration row))
        | none =>
          ({ h with earlier := current :: h.earlier, latest := next },
            .ok (.pivoted next.iteration))

end History

/-- How far a session has come. -/
inductive Phase (α : Type) where
  | building
  | iterating (history : History α)
  | optimal (history : History α)
  | unbounded (history : History α)
  | framingFailed
  | calculationFailed (history : History α)

/-- The phase of a session by name. -/
inductive SessionState where
  | building
  | iterating
  | optimal
  | unbounded
  | error
  deriving DecidableEq, Repr

/-- A single attempt to solve a problem. -/
structure Session (α : Type) where
  problem : Problem α
  tolerance : α
  phase : Phase α

namespace Session

variable {α : Type}

/-- A fresh session. -/
def ofProblem (problem : Problem α) (tolerance : α) : Session α := ⟨problem, tolerance, .building⟩

/-- The state of a session. -/
def state (s : Session α) : SessionState :=
  match s.phase with
  | .building => .building
  | .iterating _ => .iterating
  | .optimal _ => .optimal
  | .unbounded _ => .unbounded
  | .framingFailed | .calculationFailed _ => .error

/-- Why a session stopped, or that it has not. -/
def termination (s : Session α) : Termination :=
  match s.phase with
  | .building | .iterating _ => .notTerminated
  | .optimal _ => .optimal
  | .unbounded _ => .unbounded
  | .framingFailed => .framingError
  | .calculationFailed _ => .calculationError

/-- The history of a session that was framed. -/
def history? (s : Session α) : Option (History α) :=
  match s.phase with
  | .building | .framingFailed => none
  | .iterating h | .optimal h | .unbounded h | .calculationFailed h => some h

/-- The standard form of a session that was framed. -/
def standardForm? (s : Session α) : Option (StandardForm α) := s.history?.map History.form

/-- Every tableau of a session, in order of iteration. -/
def tableaux (s : Session α) : List (Tableau α) := (s.history?.map History.tableaux).getD []

variable [Scalar α]

/-- The standard form of a problem with its first tableau. -/
def firstHistory (p : Problem α) : Except FramingError (History α) := do
  let form ← StandardForm.ofProblem p
  let first ← Tableau.initial form
  pure ⟨form, [], first⟩

/-- Frames the problem: brings it to standard form and makes the first tableau. A session is framed
    once only. -/
def frame (s : Session α) : Session α × Except FramingError (Tableau α) :=
  match s.phase with
  | .building =>
    match firstHistory s.problem with
    | .ok h => ({ s with phase := .iterating h }, .ok h.latest)
    | .error e => ({ s with phase := .framingFailed }, .error e)
  | _ => (s, .error .alreadyFramed)

/-- Evaluates the latest tableau and either stops or pivots once. Outside of iteration the session
    refuses and stays as it is. -/
def step (s : Session α) : Session α × Except (CalculationError α) Step :=
  match s.phase with
  | .building => (s, .error .notFramed)
  | .iterating h =>
    match h.advance s.tolerance with
    | (h, .ok .optimal) => ({ s with phase := .optimal h }, .ok .optimal)
    | (h, .ok (.unbounded column)) =>
      ({ s with phase := .unbounded h }, .ok (.unbounded column))
    | (h, .ok (.pivoted iteration)) =>
      ({ s with phase := .iterating h }, .ok (.pivoted iteration))
    | (h, .error e) => ({ s with phase := .calculationFailed h }, .error e)
  | _ => (s, .error (.terminated s.termination))

/-- A step would pivot; found out on a copy of the latest tableau. -/
def needsPivot (s : Session α) : Bool :=
  match s.phase with
  | .iterating h =>
    match (h.latest.evaluate.selectPivot s.tolerance).2 with
    | .ok (.pivot _) => true
    | _ => false
  | _ => false

/-- Steps until the session stops or the number of pivots is used up with another one pending. -/
def runPivots (s : Session α) : Nat → Session α × Except (CalculationError α) Termination
  | 0 =>
    if s.needsPivot then (s, .ok .notTerminated)
    else
      match s.step with
      | (s, .ok _) => (s, .ok s.termination)
      | (s, .error e) => (s, .error e)
  | pivots + 1 =>
    match s.step with
    | (s, .ok (.pivoted _)) => s.runPivots pivots
    | (s, .ok _) => (s, .ok s.termination)
    | (s, .error e) => (s, .error e)

/-- Runs a session for at most a number of pivots; one that is optimal or unbounded already says
    so. -/
def run (s : Session α) (maxPivots : Nat) :
    Session α × Except (CalculationError α) Termination :=
  match s.phase with
  | .optimal _ | .unbounded _ => (s, .ok s.termination)
  | _ => s.runPivots maxPivots

/-- The solution of a session that is optimal. -/
def solution? (s : Session α) : Option (Solution α) :=
  match s.phase with
  | .optimal h => some (Solution.ofTableau h.form h.latest)
  | _ => none

end Session

end Simplex
