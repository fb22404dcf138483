import Simplex.Proofs.Records

/-!
The fields of sessions. The record of a session is updated by every call as the session is, and a
session is given by its record, so what holds of records holds of sessions: their fields are
consistent, and calls that are declined or come after the end leave them as they are.
-/
namespace Simplex

variable {α : Type}

namespace History

variable (h : History α)

theorem getLast?_tableaux : h.tableaux.getLast? = some h.latest := by simp [tableaux]

theorem dropLast_tableaux : h.tableaux.dropLast = h.earlier.reverse := by simp [tableaux]

end History

/-! ### Sessions and their fields -/

/-- The fields of a session. -/
def Session.record (s : Session α) : Record α :=
  ⟨s.problem, s.tolerance, s.state, s.termination, s.standardForm?, s.tableaux⟩

namespace Record

/-- The history that a form and the tableaux are. -/
def history? (r : Record α) : Option (History α) :=
  match r.form, r.tableaux.getLast? with
  | some form, some last => some ⟨form, r.tableaux.dropLast.reverse, last⟩
  | _, _ => none

/-- The session with these fields. -/
def session? (r : Record α) : Option (Session α) :=
  match r.state, r.history? with
  | .building, none => some ⟨r.problem, r.tolerance, .building⟩
  | .iterating, some h => some ⟨r.problem, r.tolerance, .iterating h⟩
  | .optimal, some h => some ⟨r.problem, r.tolerance, .optimal h⟩
  | .unbounded, some h => some ⟨r.problem, r.tolerance, .unbounded h⟩
  | .error, none => some ⟨r.problem, r.tolerance, .framingFailed⟩
  | .error, some h => some ⟨r.problem, r.tolerance, .calculationFailed h⟩
  | _, _ => none

end Record

namespace Session

variable {s : Session α}

theorem session?_record (s : Session α) : s.record.session? = some s := by
  have back (h : History α) : h.tableaux.dropLast.reverse = h.earlier := by
    rw [h.dropLast_tableaux, List.reverse_reverse]
  obtain ⟨problem, tolerance, phase⟩ := s
  cases phase with
  | building | framingFailed => rfl
  | iterating h | optimal h | unbounded h | calculationFailed h =>
    simp [Record.session?, Record.history?, record, state, standardForm?, tableaux, history?,
      h.getLast?_tableaux, back]

/-- A session is given by its fields. -/
theorem record_injective : Function.Injective (record : Session α → Record α) := by
  intro s t same
  have own := session?_record s
  rw [same, session?_record t] at own
  exact (Option.some.inj own).symm

/-! ### Calls -/

variable [Scalar α]

theorem record_frame (s : Session α) : s.record.frame = (s.frame.1.record, s.frame.2) := by
  obtain ⟨problem, tolerance, phase⟩ := s
  cases phase with
  | building =>
    cases framed : firstHistory problem with
    | error e =>
      simp only [Record.frame, record, frame, framed]
      rfl
    | ok h =>
      have first : h.tableaux = [h.latest] := by
        rw [History.tableaux, (firstHistory_ok framed).2.2]
        rfl
      simp only [Record.frame, record, frame, framed, state, tableaux, history?, standardForm?]
      simp [first, termination]
  | iterating | optimal | unbounded | framingFailed | calculationFailed => rfl

theorem record_step (s : Session α) : s.record.step = (s.step.1.record, s.step.2) := by
  obtain ⟨problem, tolerance, phase⟩ := s
  cases phase with
  | building | optimal | unbounded | framingFailed | calculationFailed => rfl
  | iterating h =>
    have last := h.getLast?_tableaux
    have front := h.dropLast_tableaux
    have fields : (Session.mk problem tolerance (.iterating h)).record =
      ⟨problem, tolerance, .iterating, .notTerminated, some h.form, h.tableaux⟩ := rfl
    rw [fields]
    simp only [Record.step, Record.advance, last, front, step, History.advance]
    generalize h.latest.evaluate.selectPivot tolerance = chosen
    obtain ⟨current, choice⟩ := chosen
    cases choice with
    | error e => rfl
    | ok choice =>
      cases choice with
      | optimal | unbounded => rfl
      | pivot p =>
        simp only
        cases current.pivoted h.form.symbols with
        | error e => rfl
        | ok next =>
          simp only
          by_cases stuck : next.iteration ≤ current.iteration
          · simp only [if_pos stuck]
            rfl
          · simp only [if_neg stuck]
            cases next.unitBasisViolation? tolerance with
            | some row => rfl
            | none =>
              have grown : History.tableaux ⟨h.form, current :: h.earlier, next⟩ =
                  h.earlier.reverse ++ [current] ++ [next] := by simp [History.tableaux]
              simp only [record, tableaux, history?, Option.map_some, Option.getD_some, grown]
              rfl

theorem record_needsPivot {h : History α} (phase : s.phase = .iterating h) :
    s.record.needsPivot = s.needsPivot := by
  obtain ⟨problem, tolerance, _⟩ := s
  cases phase
  have last : (record ⟨problem, tolerance, .iterating h⟩).tableaux.getLast? = some h.latest :=
    h.getLast?_tableaux
  have sameTolerance : (record ⟨problem, tolerance, .iterating h⟩).tolerance = tolerance := rfl
  unfold Record.needsPivot needsPivot
  cases chosen : (h.latest.evaluate.selectPivot tolerance).2 with
  | error e => simp only [last, sameTolerance, chosen]
  | ok choice => cases choice <;> simp only [last, sameTolerance, chosen]

theorem record_runPivots {h : History α} (phase : s.phase = .iterating h) (maxPivots : Nat) :
    s.record.run maxPivots = ((s.runPivots maxPivots).1.record, (s.runPivots maxPivots).2) := by
  induction maxPivots generalizing s h with
  | zero =>
    have iterating : s.record.state = .iterating := by simp [record, state, phase]
    have going : s.record.isFinished = false := by simp [Record.isFinished, iterating]
    have pending : (s.record.state = .iterating ∧ s.record.needsPivot = true) ↔
        s.needsPivot = true := by
      rw [record_needsPivot phase]
      exact and_iff_right iterating
    unfold Record.run runPivots
    simp only [going, pending, record_step]
    by_cases pivot : s.needsPivot = true
    · simp [pivot, record, termination, phase]
    · cases stepped : s.step with
      | mk next answer =>
        rw [if_neg Bool.false_ne_true, if_neg pivot, if_neg pivot]
        cases answer <;> rfl
  | succ n ih =>
    have iterating : s.record.state = .iterating := by simp [record, state, phase]
    have going : s.record.isFinished = false := by simp [Record.isFinished, iterating]
    unfold Record.run runPivots
    simp only [going, record_step]
    cases stepped : s.step with
    | mk next answer =>
      cases answer with
      | error e => rfl
      | ok step =>
        obtain ⟨_, made, _, _, rfl⟩ := step_ok stepped
        cases step with
        | pivoted iteration => exact ih rfl
        | optimal | unbounded => rfl

/-- Running a session runs its record. -/
theorem record_run (s : Session α) (maxPivots : Nat) :
    s.record.run maxPivots = ((s.run maxPivots).1.record, (s.run maxPivots).2) := by
  obtain ⟨problem, tolerance, phase⟩ := s
  cases phase with
  | building | framingFailed | calculationFailed => cases maxPivots <;> rfl
  | optimal | unbounded => cases maxPivots <;> rfl
  | iterating h => exact record_runPivots rfl maxPivots

theorem record_call (s : Session α) (c : Call) : (s.call c).record = s.record.call c := by
  cases c with
  | frame => exact (congrArg Prod.fst s.record_frame).symm
  | step => exact (congrArg Prod.fst s.record_step).symm
  | run maxPivots => exact (congrArg Prod.fst (s.record_run maxPivots)).symm

/-- Whatever is called, the record of a session is updated as the session is. -/
theorem record_after (s : Session α) (calls : List Call) :
    (s.after calls).record = s.record.after calls := by
  induction calls generalizing s with
  | nil => rfl
  | cons c rest ih =>
    show ((s.call c).after rest).record = (s.record.call c).after rest
    rw [ih, record_call]

theorem record_solution? (s : Session α) : s.record.solution? = s.solution? := by
  obtain ⟨problem, tolerance, phase⟩ := s
  cases phase with
  | building | iterating | unbounded | framingFailed | calculationFailed => rfl
  | optimal h =>
    simp [Record.solution?, solution?, record, termination, standardForm?, tableaux, history?,
      h.getLast?_tableaux]

/-- The answer to a call says that the session was framed before, was not framed or has stopped. -/
def Declines (s : Session α) : Call → Prop
  | .frame => s.frame.2 = .error .alreadyFramed
  | .step => ∃ e, s.step.2 = .error e ∧ e.IsRefusal
  | .run maxPivots => ∃ e, (s.run maxPivots).2 = .error e ∧ e.IsRefusal

theorem record_declines (s : Session α) (c : Call) : s.record.Declines c ↔ s.Declines c := by
  cases c with
  | frame => rw [Record.Declines, record_frame]; rfl
  | step => rw [Record.Declines, record_step]; rfl
  | run maxPivots => rw [Record.Declines, record_run]; rfl

/-- However a session was called, its four fields, updated one at a time, are in one of the six
    combinations. A call that it declines leaves the session as it is, and so does every call once it
    has stopped. There is a solution just in the optimal state. -/
theorem fields_consistent (p : Problem α) (tolerance : α) :
    ∀ calls s, (ofProblem p tolerance).after calls = s →
      s.record = (Record.fresh p tolerance).after calls ∧ s.record.Consistent ∧
      (∀ c, s.Declines c → s.call c = s) ∧
      (s.state = .optimal ∨ s.state = .unbounded ∨ s.state = .error → ∀ c, s.call c = s) ∧
      (s.solution?.isSome = true ↔ s.state = .optimal) := by
  rintro calls s rfl
  have updated := record_after (ofProblem p tolerance) calls
  generalize (ofProblem p tolerance).after calls = s at updated ⊢
  have consistent : s.record.Consistent := updated ▸ (Record.Consistent.fresh p tolerance).after calls
  refine ⟨updated, consistent, fun c declines => ?_, fun stopped c => ?_, ?_⟩
  · apply record_injective
    rw [record_call]
    exact consistent.call_of_declines ((record_declines s c).mpr declines)
  · apply record_injective
    rw [record_call]
    have framed : s.record.state ≠ .building := by
      rcases stopped with state | state | state <;> simp [record, state]
    have other : s.record.state ≠ .iterating := by
      rcases stopped with state | state | state <;> simp [record, state]
    exact Record.call_of_stopped framed other c
  · rw [← record_solution?]
    exact consistent.isSome_solution?

end Session

/-- Maximize `x` where it is at most two. -/
def capped : Problem Float where
  direction := .maximize
  objective := [{ coefficient := 1, name := "x" }]
  objectiveConstant := 0
  constraints := [⟨[{ coefficient := 1, name := "x" }], .le, 2⟩]

/-- A run to the optimum ends the session, which then declines a step. -/
theorem capped_declines : ∃ s, (Session.ofProblem capped 0).after [.frame, .run 1] = s ∧
    s.state = .optimal ∧ s.record.Consistent ∧ s.Declines .step ∧ s.call .step = s ∧
    s.call (.run 3) = s ∧ s.solution?.isSome = true := by
  obtain ⟨_, consistent, declined, stopped, solution⟩ :=
    Session.fields_consistent capped 0 [.frame, .run 1] _ rfl
  have optimal : ((Session.ofProblem capped 0).after [.frame, .run 1]).state = .optimal := by
    decide +kernel
  have declines : ((Session.ofProblem capped 0).after [.frame, .run 1]).Declines .step :=
    ⟨.terminated .optimal, by decide +kernel, .inr ⟨_, rfl⟩⟩
  exact ⟨_, rfl, optimal, consistent, declines, declined _ declines, stopped (.inl optimal) _,
    solution.mpr optimal⟩

end Simplex
