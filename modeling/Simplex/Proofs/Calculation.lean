import Simplex.Proofs.Basis

/-!
Calculation failures. Every tableau of a history has distinct bases with unit columns, so a step
always finds an answer, can apply the pivot that it finds, and passes its own checks. What a session
answers with an error is a call that came before framing or after the end.
-/
namespace Simplex

open Scalar (UnitLaws)

variable {α : Type}

namespace Session

/-- Why a session refuses a call: it was not framed, or it has stopped. -/
def Refuses (s : Session α) (e : CalculationError α) : Prop :=
  (e = .notFramed ∧ s.state = .building) ∨
    (e = .terminated s.termination ∧ s.termination.isTerminal = true)

theorem Refuses.not_iterating {s : Session α} {e : CalculationError α} (h : s.Refuses e)
    {history : History α} : s.phase ≠ .iterating history := by
  intro phase
  rcases h with ⟨_, building⟩ | ⟨_, terminal⟩
  · simp [state, phase] at building
  · simp [termination, phase, Termination.isTerminal] at terminal

variable [Scalar α]

/-! ### Framing -/

theorem frame_not_building (s : Session α) : s.frame.1.state ≠ .building := by
  unfold Session.frame
  split
  · split <;> simp [state]
  · rename_i framed
    obtain ⟨problem, tolerance, phase⟩ := s
    cases phase with
    | building => exact absurd rfl framed
    | iterating | optimal | unbounded | framingFailed | calculationFailed => simp [state]

theorem kept_not_building : Kept fun s : Session α => s.state ≠ .building where
  frame {s} _ := s.frame_not_building
  step {s} h := by
    unfold Session.step
    split
    · exact h
    · split <;> simp [state]
    · exact h

/-- Before framing, every other call leaves a session as it is. -/
theorem call_building {s : Session α} (building : s.state = .building) {c : Call}
    (other : c ≠ .frame) : s.call c = s := by
  obtain ⟨problem, tolerance, phase⟩ := s
  cases phase with
  | iterating | optimal | unbounded | framingFailed | calculationFailed => cases building
  | building =>
    cases c with
    | frame => exact absurd rfl other
    | step => rfl
    | run maxPivots => cases maxPivots <;> rfl

/-- A session is before its framing just as long as no call framed it. -/
theorem after_building_iff {s : Session α} (building : s.state = .building) (calls : List Call) :
    (s.after calls).state = .building ↔ Call.frame ∉ calls := by
  induction calls with
  | nil => simpa [after] using building
  | cons c rest ih =>
    by_cases framing : c = .frame
    · subst framing
      have framed : (s.after (.frame :: rest)).state ≠ .building :=
        kept_not_building.after s.frame_not_building rest
      simpa using framed
    · have same : s.after (c :: rest) = s.after rest :=
        congrArg (Session.after · rest) (call_building building framing)
      rw [same, ih]
      simp [Ne.symm framing]

theorem kept_history : Kept fun s : Session α => s.history?.isSome = true where
  frame {s} h := by
    unfold Session.frame
    split
    · rename_i building
      simp [history?, building] at h
    · exact h
  step {s} h := by
    unfold Session.step
    split
    · exact h
    · split <;> rfl
    · exact h

end Session

/-! ### Steps -/

variable [Scalar α] [UnitLaws α] {p : Problem α} {tolerance : α}

/-- A step from a based tableau succeeds: the look for a pivot answers, its pivot can be applied, and
    the next tableau has the next number and is based. -/
theorem History.advance_isOk {h : History α} (based : h.latest.Based h.form)
    (nonneg : ¬ tolerance < 0) : ∃ next step, h.advance tolerance = (next, .ok step) := by
  obtain ⟨u, choice, chosen⟩ := based.columnsInOrder.selectPivot_isOk tolerance
  unfold advance
  rw [chosen]
  cases choice with
  | optimal => exact ⟨_, _, rfl⟩
  | unbounded s => exact ⟨_, _, rfl⟩
  | pivot p =>
    obtain ⟨source, turns⟩ := based.turns nonneg chosen
    obtain ⟨made, pivoted⟩ := turns.pivoted_isOk
    have current := based.of_bare (Tableau.bare_of_selected chosen).symm
    have number := (turns.next_rows current.toFits pivoted).1
    have unit := (turns.based_next current pivoted).unitBasisViolation?_eq_none nonneg
    have advances : ¬ made.iteration ≤ u.iteration := by omega
    simp only [pivoted, advances, unit, if_false]
    exact ⟨_, _, rfl⟩

namespace Session

variable {s next : Session α} {e : CalculationError α}

theorem Lawful.step_isOk {h : History α} (lawful : s.Lawful p tolerance)
    (nonneg : ¬ tolerance < 0) (phase : s.phase = .iterating h) :
    ∃ next step, s.step = (next, .ok step) := by
  obtain ⟨problem, own, _⟩ := s
  obtain ⟨rfl, rfl, history⟩ := lawful
  cases phase
  obtain ⟨form, reached⟩ := history
  have based := reached.based (StandardForm.represents_of_ofProblem form) nonneg
  obtain ⟨made, step, advanced⟩ := History.advance_isOk based nonneg
  simp only [Session.step, advanced]
  cases step <;> exact ⟨_, _, rfl⟩

/-- A step that fails was refused, and the session stays as it is. -/
theorem Lawful.step_error (lawful : s.Lawful p tolerance) (nonneg : ¬ tolerance < 0)
    (stepped : s.step = (next, .error e)) : s.Refuses e ∧ next = s := by
  cases phase : s.phase with
  | iterating h =>
    obtain ⟨_, _, again⟩ := lawful.step_isOk nonneg phase
    rw [again] at stepped
    cases stepped
  | building =>
    simp only [Session.step, phase] at stepped
    cases stepped
    exact ⟨.inl ⟨rfl, by simp [state, phase]⟩, rfl⟩
  | optimal | unbounded | framingFailed | calculationFailed =>
    simp only [Session.step, phase] at stepped
    cases stepped
    exact ⟨.inr ⟨rfl, by simp [termination, phase, Termination.isTerminal]⟩, rfl⟩

/-- The calculation has not failed. -/
structure Sound (p : Problem α) (tolerance : α) (s : Session α) : Prop where
  lawful : s.Lawful p tolerance
  unfailed : s.termination ≠ .calculationError

theorem Sound.kept (nonneg : ¬ tolerance < 0) :
    Kept fun s : Session α => s.Sound p tolerance where
  frame {s} h := by
    refine ⟨h.lawful.frame, ?_⟩
    unfold Session.frame
    split
    · split <;> simp [termination]
    · exact h.unfailed
  step {s} h := by
    refine ⟨h.lawful.step, ?_⟩
    cases stepped : s.step with
    | mk next result =>
      cases result with
      | error e => exact (h.lawful.step_error nonneg stepped).2 ▸ h.unfailed
      | ok step =>
        obtain ⟨_, _, _, _, rfl⟩ := step_ok stepped
        cases step <;> simp [termination, phaseOf]

omit [UnitLaws α] in
theorem Sound.ofProblem : (Session.ofProblem p tolerance).Sound p tolerance :=
  ⟨.ofProblem, by simp [termination, Session.ofProblem]⟩

theorem Lawful.runPivots_error (lawful : s.Lawful p tolerance) (nonneg : ¬ tolerance < 0)
    {pivots : Nat} (ran : s.runPivots pivots = (next, .error e)) : s.Refuses e ∧ next = s := by
  induction pivots generalizing s with
  | zero =>
    unfold Session.runPivots at ran
    split at ran
    · cases ran
    · split at ran
      · cases ran
      · rename_i stepped
        cases ran
        exact lawful.step_error nonneg stepped
  | succ n ih =>
    unfold Session.runPivots at ran
    split at ran
    · rename_i made iteration stepped
      have later := lawful.step
      rw [stepped] at later
      obtain ⟨_, _, _, _, rfl⟩ := step_ok stepped
      -- the rest would have been refused, but after a pivot the session iterates
      exact absurd rfl (ih later ran).1.not_iterating
    · cases ran
    · rename_i stepped
      cases ran
      exact lawful.step_error nonneg stepped

theorem Lawful.run_error (lawful : s.Lawful p tolerance) (nonneg : ¬ tolerance < 0)
    {pivots : Nat} (ran : s.run pivots = (next, .error e)) : s.Refuses e ∧ next = s := by
  unfold Session.run at ran
  split at ran
  · cases ran
  · cases ran
  · exact lawful.runPivots_error nonneg ran

end Session

theorem Solver.solve_ne_calculation (nonneg : ¬ tolerance < 0) (cap : Nat) (e : CalculationError α)
    (tableaux : List (Tableau α)) :
    Solver.solve ⟨cap, tolerance⟩ p ≠ .error (.calculation e tableaux) := by
  intro failed
  have lawful : ((Session.ofProblem p tolerance).frame.1).Lawful p tolerance := .frame .ofProblem
  unfold solve at failed
  split at failed
  · cases failed
  · rename_i s _ started
    change (Session.ofProblem p tolerance).frame = _ at started
    rw [started] at lawful
    obtain ⟨h, _, framed⟩ := Session.frame_ok started
    have phase : s.phase = .iterating h := by rw [framed]
    split at failed
    · rename_i ran
      exact absurd phase (lawful.run_error nonneg ran).1.not_iterating
    · cases failed
    · rename_i ran
      have begun : s.history?.isSome = true := by simp [Session.history?, phase]
      have known := Session.kept_history.run begun cap
      rw [ran] at known
      split at failed
      · rename_i none
        rw [Session.standardForm?, Option.map_eq_none_iff] at none
        simp [none] at known
      · cases failed

/-- No calculation on doubles fails, whatever the numbers are, and whatever is called: a call is
    refused before framing or after the end only. -/
theorem calculation_never_fails (p : Problem Float) {tolerance : Float} (nonneg : ¬ tolerance < 0) :
    (∀ calls s, (Session.ofProblem p tolerance).after calls = s →
      (∀ next e, s.step = (next, .error e) → s.Refuses e ∧ next = s) ∧
      (∀ pivots next e, s.run pivots = (next, .error e) → s.Refuses e ∧ next = s) ∧
      (s.state = .building ↔ Session.Call.frame ∉ calls) ∧
      s.termination ≠ .calculationError) ∧
    ∀ cap e tableaux, Solver.solve ⟨cap, tolerance⟩ p ≠ .error (.calculation e tableaux) := by
  refine ⟨?_, Solver.solve_ne_calculation nonneg⟩
  rintro calls s rfl
  have sound := (Session.Sound.kept nonneg).after (Session.Sound.ofProblem (p := p)) calls
  refine ⟨fun next e stepped => sound.lawful.step_error nonneg stepped,
    fun pivots next e ran => sound.lawful.run_error nonneg ran,
    Session.after_building_iff rfl calls, sound.unfailed⟩

/-- Maximize `y` where `x` is at most one and `y` exceeds an infinite multiple of it by one. -/
def steep : Problem Float where
  direction := .maximize
  objective := [{ coefficient := 1, name := "y" }]
  objectiveConstant := 0
  constraints := [⟨[{ coefficient := 1, name := "x" }], .le, 1⟩,
    ⟨[{ coefficient := 1, name := "y" }, { coefficient := -1 / 0, name := "x" }], .eq, 1⟩]

/-- One pivot makes an entry of a basis column undefined, and yet no calculation fails. -/
theorem steep_never_fails :
    (((Session.ofProblem steep 0).after [.frame, .step]).tableaux.any fun t =>
      t.rows.any fun r => Scalar.isUndefined (r.coefficient r.basis)) = true ∧
    ∀ calls, ((Session.ofProblem steep 0).after calls).termination ≠ .calculationError := by
  refine ⟨by decide +kernel, fun calls => ?_⟩
  exact ((calculation_never_fails steep (by decide +kernel)).1 calls _ rfl).2.2.2

end Simplex
