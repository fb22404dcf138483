import Simplex.Proofs.Runs

/-!
Sessions by their fields. A record keeps the state of a session, the reason why it stopped, its
standard form and its tableaux as four fields of their own, and its calls update them one at a time.
The fields never disagree: every call leads from one of six combinations to one of them, a call that
is declined changes nothing, and after the end no call does.
-/
namespace Simplex

variable {α : Type}

/-- A session with its fields kept apart. -/
structure Record (α : Type) where
  problem : Problem α
  tolerance : α
  state : SessionState
  termination : Termination
  form : Option (StandardForm α)
  tableaux : List (Tableau α)

namespace Record

/-- The record of a fresh session. -/
def fresh (problem : Problem α) (tolerance : α) : Record α :=
  ⟨problem, tolerance, .building, .notTerminated, none, []⟩

/-- The record stops for a reason. -/
def stop (r : Record α) (state : SessionState) (termination : Termination) : Record α :=
  { r with state := state, termination := termination }

variable [Scalar α]

/-- Frames the problem: the form and the first tableau are stored before the state changes. -/
def frame (r : Record α) : Record α × Except FramingError (Tableau α) :=
  if r.state ≠ .building then (r, .error .alreadyFramed)
  else
    match Session.firstHistory r.problem with
    | .ok h =>
      ({ r with form := some h.form, tableaux := r.tableaux ++ [h.latest], state := .iterating },
        .ok ((r.tableaux ++ [h.latest]).headD h.latest))
    | .error e => (r.stop .error .framingError, .error e)

/-- Evaluates the last tableau in its place, looks for a pivot, and either stops or puts the next
    tableau behind it. -/
def advance (r : Record α) : Record α × Except (CalculationError α) Step :=
  match r.form, r.tableaux.getLast? with
  | some form, some last =>
    let (current, choice) := last.evaluate.selectPivot r.tolerance
    let inspected := { r with tableaux := r.tableaux.dropLast ++ [current] }
    match choice with
    | .error e => (inspected, .error e)
    | .ok .optimal => (inspected.stop .optimal .optimal, .ok .optimal)
    | .ok (.unbounded column) => (inspected.stop .unbounded .unbounded, .ok (.unbounded column))
    | .ok (.pivot _) =>
      match current.pivoted form.symbols with
      | .error e => (inspected, .error e)
      | .ok next =>
        if next.iteration ≤ current.iteration then
          (inspected, .error (.iterationNotAdvanced current.iteration next.iteration))
        else
          match next.unitBasisViolation? r.tolerance with
          | some row => (inspected, .error (.brokenBasis next.iteration row))
          | none =>
            ({ inspected with tableaux := inspected.tableaux ++ [next] },
              .ok (.pivoted next.iteration))
  | _, _ => (r, .error .notFramed)

/-- Advances a record that iterates; a failure stops it. -/
def step (r : Record α) : Record α × Except (CalculationError α) Step :=
  match r.state with
  | .iterating =>
    match r.advance with
    | (r, .ok step) => (r, .ok step)
    | (r, .error e) => (r.stop .error .calculationError, .error e)
  | .building => (r, .error .notFramed)
  | .optimal | .unbounded | .error => (r, .error (.terminated r.termination))

/-- A step would pivot; found out on a copy of the last tableau. -/
def needsPivot (r : Record α) : Bool :=
  match r.tableaux.getLast? with
  | none => false
  | some last =>
    match (last.evaluate.selectPivot r.tolerance).2 with
    | .ok (.pivot _) => true
    | _ => false

/-- The record has stopped at an optimum, or where there is none. -/
def isFinished (r : Record α) : Bool := r.state == .optimal || r.state == .unbounded

/-- Steps until the record stops or the number of pivots is used up with another one pending. -/
def run (r : Record α) : Nat → Record α × Except (CalculationError α) Termination
  | 0 =>
    if r.isFinished then (r, .ok r.termination)
    else if r.state = .iterating ∧ r.needsPivot then (r, .ok .notTerminated)
    else
      match r.step with
      | (r, .ok _) => (r, .ok r.termination)
      | (r, .error e) => (r, .error e)
  | pivots + 1 =>
    if r.isFinished then (r, .ok r.termination)
    else
      match r.step with
      | (r, .ok (.pivoted _)) => r.run pivots
      | (r, .ok _) => (r, .ok r.termination)
      | (r, .error e) => (r, .error e)

/-- The solution, only once the record stopped as optimal. -/
def solution? (r : Record α) : Option (Solution α) :=
  if r.termination ≠ .optimal then none
  else
    match r.form, r.tableaux.getLast? with
    | some form, some last => some (Solution.ofTableau form last)
    | _, _ => none

/-- The record after a call. -/
def call (r : Record α) : Session.Call → Record α
  | .frame => r.frame.1
  | .step => r.step.1
  | .run maxPivots => (r.run maxPivots).1

/-- The record after a sequence of calls. -/
def after (r : Record α) (calls : List Session.Call) : Record α := calls.foldl call r

end Record

/-! ### Errors that are no refusals -/

/-- The error says that the call came before framing or after the end. -/
def CalculationError.IsRefusal (e : CalculationError α) : Prop :=
  e = .notFramed ∨ ∃ reason, e = .terminated reason

variable [Scalar α]

theorem Tableau.not_refusal_of_selectPivot {t u : Tableau α} {tolerance : α}
    {e : CalculationError α} (failed : t.selectPivot tolerance = (u, .error e)) : ¬ e.IsRefusal := by
  unfold selectPivot at failed
  split at failed
  · cases failed
    simp [CalculationError.IsRefusal]
  · split at failed
    · cases failed
    · simp only at failed
      split at failed <;> cases failed

theorem Tableau.not_refusal_of_pivoted {t : Tableau α} {symbols : SymbolTable}
    {e : CalculationError α} (failed : t.pivoted symbols = .error e) : ¬ e.IsRefusal := by
  unfold pivoted at failed
  split at failed
  · cases failed
    simp [CalculationError.IsRefusal]
  · split at failed
    · cases failed
      simp [CalculationError.IsRefusal]
    · split at failed
      · cases failed
        simp [CalculationError.IsRefusal]
      · cases failed

theorem Tableau.initialRows_ne_alreadyFramed {form : StandardForm α} {dense : List (List α)}
    {taken : List Symbol} {equations : List (StandardConstraint α × List α × Nat)} :
    initialRows form dense taken equations ≠ .error .alreadyFramed := by
  induction equations generalizing taken with
  | nil => simp [initialRows]
  | cons equation rest ih =>
    obtain ⟨c, coefficients, index⟩ := equation
    intro failed
    unfold initialRows at failed
    split at failed
    · cases failed
    · rename_i basis _
      cases others : initialRows form dense (taken ++ [basis]) rest with
      | error e =>
        rw [others] at failed
        cases failed
        exact ih others
      | ok rows =>
        rw [others] at failed
        cases failed

theorem Tableau.initial_ne_alreadyFramed {form : StandardForm α} :
    initial form ≠ .error .alreadyFramed := by
  intro failed
  unfold initial at failed
  simp only at failed
  cases rows : initialRows form (form.constraints.map fun c => form.symbols.row c.lhs) []
      (form.constraints.zip (form.constraints.map fun c => form.symbols.row c.lhs).zipIdx) with
  | error e =>
    rw [rows] at failed
    cases failed
    exact initialRows_ne_alreadyFramed rows
  | ok rows' =>
    rw [rows] at failed
    cases failed

theorem StandardForm.ofProblem_ne_alreadyFramed {p : Problem α} :
    ofProblem p ≠ .error .alreadyFramed := by
  intro failed
  unfold ofProblem at failed
  split at failed
  · cases failed
  · split at failed
    · cases failed
    · split at failed <;> cases failed

/-- Framing itself never fails because it was done before. -/
theorem Session.firstHistory_ne_alreadyFramed {p : Problem α} :
    firstHistory p ≠ .error .alreadyFramed := by
  intro failed
  unfold firstHistory at failed
  cases made : StandardForm.ofProblem p with
  | error e =>
    rw [made] at failed
    cases failed
    exact StandardForm.ofProblem_ne_alreadyFramed made
  | ok form =>
    cases first : Tableau.initial form with
    | error e =>
      simp only [made, bind, Except.bind, first] at failed
      cases failed
      exact Tableau.initial_ne_alreadyFramed first
    | ok t =>
      simp only [made, bind, Except.bind, first] at failed
      cases failed

namespace Record

variable {r : Record α} {e : CalculationError α}

/-! ### What advancing does -/

/-- The state and the reason after an answer: only an end changes them. -/
def fieldsAfter (r : Record α) : Except (CalculationError α) Step → SessionState × Termination
  | .ok .optimal => (.optimal, .optimal)
  | .ok (.unbounded _) => (.unbounded, .unbounded)
  | .ok (.pivoted _) | .error _ => (r.state, r.termination)

/-- Advancing keeps the form and at least one tableau, also where it fails, and is not refused. -/
theorem advance_spec (framed : r.form.isSome = true) (begun : r.tableaux ≠ []) :
    r.advance.1.form.isSome = true ∧ r.advance.1.tableaux ≠ [] ∧
      (r.advance.1.state, r.advance.1.termination) = r.fieldsAfter r.advance.2 ∧
      ∀ e, r.advance.2 = .error e → ¬ e.IsRefusal := by
  obtain ⟨form, known⟩ := Option.isSome_iff_exists.mp framed
  have last : r.tableaux.getLast? = some (r.tableaux.getLast begun) :=
    List.getLast?_eq_some_getLast begun
  unfold advance
  simp only [known, last]
  generalize chosen : (r.tableaux.getLast begun).evaluate.selectPivot r.tolerance = answer
  obtain ⟨current, choice⟩ := answer
  cases choice with
  | error e =>
    refine ⟨rfl, by simp, rfl, ?_⟩
    rintro _ ⟨⟩
    exact Tableau.not_refusal_of_selectPivot chosen
  | ok choice =>
    cases choice with
    | optimal | unbounded => exact ⟨rfl, by simp [stop], rfl, fun _ failed => by cases failed⟩
    | pivot p =>
      simp only
      split
      · rename_i e pivoted
        refine ⟨rfl, by simp, rfl, ?_⟩
        rintro _ ⟨⟩
        exact Tableau.not_refusal_of_pivoted pivoted
      · split
        · exact ⟨rfl, by simp, rfl, by simp [CalculationError.IsRefusal]⟩
        · split
          · exact ⟨rfl, by simp, rfl, by simp [CalculationError.IsRefusal]⟩
          · exact ⟨rfl, by simp, rfl, fun _ failed => by cases failed⟩

/-! ### The six combinations -/

/-- The combinations of state, reason, form and tableaux that occur. -/
inductive Consistent (r : Record α) : Prop
  | building (state : r.state = .building) (reason : r.termination = .notTerminated)
      (form : r.form = none) (tableaux : r.tableaux = [])
  | iterating (state : r.state = .iterating) (reason : r.termination = .notTerminated)
      (form : r.form.isSome = true) (tableaux : r.tableaux ≠ [])
  | optimal (state : r.state = .optimal) (reason : r.termination = .optimal)
      (form : r.form.isSome = true) (tableaux : r.tableaux ≠ [])
  | unbounded (state : r.state = .unbounded) (reason : r.termination = .unbounded)
      (form : r.form.isSome = true) (tableaux : r.tableaux ≠ [])
  | framingFailed (state : r.state = .error) (reason : r.termination = .framingError)
      (form : r.form = none) (tableaux : r.tableaux = [])
  | calculationFailed (state : r.state = .error) (reason : r.termination = .calculationError)
      (form : r.form.isSome = true) (tableaux : r.tableaux ≠ [])

namespace Consistent

omit [Scalar α] in
theorem fresh (problem : Problem α) (tolerance : α) : (fresh problem tolerance).Consistent :=
  .building rfl rfl rfl rfl

omit [Scalar α] in
theorem of_building (h : r.Consistent) (building : r.state = .building) :
    r.termination = .notTerminated ∧ r.form = none ∧ r.tableaux = [] := by
  cases h with
  | building _ reason form tableaux => exact ⟨reason, form, tableaux⟩
  | iterating state | optimal state | unbounded state | framingFailed state
  | calculationFailed state => rw [state] at building; cases building

omit [Scalar α] in
theorem of_iterating (h : r.Consistent) (iterating : r.state = .iterating) :
    r.termination = .notTerminated ∧ r.form.isSome = true ∧ r.tableaux ≠ [] := by
  cases h with
  | iterating _ reason form tableaux => exact ⟨reason, form, tableaux⟩
  | building state | optimal state | unbounded state | framingFailed state
  | calculationFailed state => rw [state] at iterating; cases iterating

theorem frame (h : r.Consistent) : r.frame.1.Consistent := by
  unfold Record.frame
  split
  · exact h
  · rename_i building
    obtain ⟨reason, form, tableaux⟩ := h.of_building (not_not.mp building)
    split
    · exact .iterating rfl reason rfl (by simp)
    · exact .framingFailed rfl rfl form tableaux

/-- One step leads from one of the combinations to one of them. -/
theorem step (h : r.Consistent) : r.step.1.Consistent := by
  unfold Record.step
  split
  · rename_i iterating
    obtain ⟨reason, form, tableaux⟩ := h.of_iterating iterating
    obtain ⟨form, tableaux, fields, _⟩ := advance_spec form tableaux
    split
    · rename_i next step advanced
      rw [advanced] at form tableaux fields
      obtain ⟨state, reason'⟩ := Prod.mk.inj fields
      cases step with
      | optimal => exact .optimal state reason' form tableaux
      | unbounded => exact .unbounded state reason' form tableaux
      | pivoted => exact .iterating (state.trans iterating) (reason'.trans reason) form tableaux
    · rename_i next e advanced
      rw [advanced] at form tableaux
      exact .calculationFailed rfl rfl form tableaux
  · exact h
  · exact h
  · exact h
  · exact h

theorem run (h : r.Consistent) (maxPivots : Nat) : (r.run maxPivots).1.Consistent := by
  induction maxPivots generalizing r with
  | zero =>
    have stepped := h.step
    unfold Record.run
    split
    · exact h
    · split
      · exact h
      · split <;> (rename_i result; rw [result] at stepped; exact stepped)
  | succ n ih =>
    have stepped := h.step
    unfold Record.run
    split
    · exact h
    · split <;> (rename_i result; rw [result] at stepped)
      · exact ih stepped
      · exact stepped
      · exact stepped

theorem call (h : r.Consistent) (c : Session.Call) : (r.call c).Consistent := by
  cases c with
  | frame => exact h.frame
  | step => exact h.step
  | run maxPivots => exact h.run maxPivots

theorem after (h : r.Consistent) (calls : List Session.Call) : (r.after calls).Consistent := by
  induction calls generalizing r with
  | nil => exact h
  | cons c rest ih => exact ih (h.call c)

end Consistent

/-! ### Calls that change nothing -/

theorem frame_of_not_building (framed : r.state ≠ .building) : r.frame.1 = r := by
  rw [frame, if_pos framed]

theorem step_of_not_iterating (other : r.state ≠ .iterating) :
    ∃ e, r.step = (r, .error e) := by
  unfold step
  split
  · rename_i iterating
    exact absurd iterating other
  · exact ⟨_, rfl⟩
  · exact ⟨_, rfl⟩
  · exact ⟨_, rfl⟩
  · exact ⟨_, rfl⟩

theorem run_of_not_iterating (other : r.state ≠ .iterating) (maxPivots : Nat) :
    (r.run maxPivots).1 = r := by
  obtain ⟨e, stepped⟩ := step_of_not_iterating other
  cases maxPivots with
  | zero => simp [run, stepped, other, apply_ite Prod.fst]
  | succ n => simp [run, stepped, apply_ite Prod.fst]

/-- A record that is past framing and does not iterate stays as it is. -/
theorem call_of_stopped (framed : r.state ≠ .building) (other : r.state ≠ .iterating)
    (c : Session.Call) : r.call c = r := by
  cases c with
  | frame => exact frame_of_not_building framed
  | step =>
    obtain ⟨e, stepped⟩ := step_of_not_iterating other
    rw [call, stepped]
  | run maxPivots => exact run_of_not_iterating other maxPivots

/-! ### Calls that are declined -/

theorem Consistent.not_refusal_of_step (h : r.Consistent) (iterating : r.state = .iterating)
    (failed : r.step.2 = .error e) : ¬ e.IsRefusal := by
  obtain ⟨_, form, tableaux⟩ := h.of_iterating iterating
  unfold Record.step at failed
  simp only [iterating] at failed
  split at failed
  · cases failed
  · rename_i next e' advanced
    cases failed
    exact (advance_spec form tableaux).2.2.2 e (by rw [advanced])

/-- A step that pivots leaves a record that iterates. -/
theorem Consistent.iterating_of_pivoted (h : r.Consistent) {next : Record α} {iteration : Nat}
    (stepped : r.step = (next, .ok (.pivoted iteration))) : next.state = .iterating := by
  by_cases iterating : r.state = .iterating
  · obtain ⟨_, form, tableaux⟩ := h.of_iterating iterating
    obtain ⟨_, _, fields, _⟩ := advance_spec form tableaux
    unfold Record.step at stepped
    simp only [iterating] at stepped
    split at stepped
    · rename_i made step advanced
      cases stepped
      rw [advanced] at fields
      exact (Prod.mk.inj fields).1.trans iterating
    · cases stepped
  · obtain ⟨e, refused⟩ := step_of_not_iterating iterating
    rw [refused] at stepped
    cases stepped

theorem Consistent.not_refusal_of_run (h : r.Consistent) (iterating : r.state = .iterating)
    (maxPivots : Nat) (failed : (r.run maxPivots).2 = .error e) : ¬ e.IsRefusal := by
  induction maxPivots generalizing r with
  | zero =>
    unfold Record.run at failed
    split at failed
    · cases failed
    · split at failed
      · cases failed
      · split at failed
        · cases failed
        · rename_i next e' stepped
          cases failed
          exact h.not_refusal_of_step iterating (by rw [stepped])
  | succ n ih =>
    unfold Record.run at failed
    split at failed
    · cases failed
    · split at failed
      · rename_i next iteration stepped
        have later := h.step
        rw [stepped] at later
        exact ih later (h.iterating_of_pivoted stepped) failed
      · cases failed
      · rename_i next e' stepped
        cases failed
        exact h.not_refusal_of_step iterating (by rw [stepped])

/-- The answer to a call refuses it. -/
def Declines (r : Record α) : Session.Call → Prop
  | .frame => r.frame.2 = .error .alreadyFramed
  | .step => ∃ e, r.step.2 = .error e ∧ e.IsRefusal
  | .run maxPivots => ∃ e, (r.run maxPivots).2 = .error e ∧ e.IsRefusal

/-- A refused call leaves every field as it is. -/
theorem Consistent.call_of_declines (h : r.Consistent) {c : Session.Call} (declines : r.Declines c) :
    r.call c = r := by
  cases c with
  | frame =>
    refine frame_of_not_building fun building => ?_
    have answer : r.frame.2 = .error .alreadyFramed := declines
    unfold Record.frame at answer
    rw [if_neg (not_not.mpr building)] at answer
    split at answer
    · cases answer
    · rename_i e failed
      cases answer
      exact Session.firstHistory_ne_alreadyFramed failed
  | step =>
    obtain ⟨e, failed, refusal⟩ := declines
    have other : r.state ≠ .iterating := fun iterating =>
      h.not_refusal_of_step iterating failed refusal
    obtain ⟨_, stepped⟩ := step_of_not_iterating other
    rw [Record.call, stepped]
  | run maxPivots =>
    obtain ⟨e, failed, refusal⟩ := declines
    exact run_of_not_iterating (fun iterating =>
      h.not_refusal_of_run iterating maxPivots failed refusal) maxPivots

/-- There is a solution just in the optimal state. -/
theorem Consistent.isSome_solution? (h : r.Consistent) :
    r.solution?.isSome = true ↔ r.state = .optimal := by
  unfold solution?
  cases h with
  | optimal state reason form tableaux =>
    obtain ⟨form, known⟩ := Option.isSome_iff_exists.mp form
    have last := List.getLast?_eq_some_getLast tableaux
    simp [state, reason, known, last]
  | building state reason | iterating state reason | unbounded state reason
  | framingFailed state reason | calculationFailed state reason => simp [state, reason]

end Record

end Simplex
