import Simplex.Solver
import Simplex.Proofs.Shape

/-!
Runs of sessions. `advance_ok` lists what one step of a history does. A tableau is reached if pivots
lead to it from the first one; every call on a session keeps it lawful, that is, its tableaux are
reached and its last one shows why it stopped. A report is what a lawful session ended with.
-/
namespace Simplex

variable {α : Type} [Scalar α]

namespace History

/-- What a step whose look for a pivot left `u` and gave `choice` made of a history. -/
def Makes (h : History α) (tolerance : α) (u : Tableau α)
    (choice : Except (CalculationError α) (PivotChoice α)) (next : History α) :
    Except (CalculationError α) Step → Prop
  | .ok .optimal => choice = .ok .optimal ∧ next = { h with latest := u }
  | .ok (.unbounded s) => choice = .ok (.unbounded s) ∧ next = { h with latest := u }
  | .ok (.pivoted iteration) => ∃ p made, choice = .ok (.pivot p) ∧
      u.pivoted h.form.symbols = .ok made ∧ u.iteration < made.iteration ∧
      made.unitBasisViolation? tolerance = none ∧ iteration = made.iteration ∧
      next = { h with earlier := u :: h.earlier, latest := made }
  | .error _ => next = { h with latest := u }

/-- Every step looks for a pivot and does what that calls for. -/
theorem advance_ok {h next : History α} {tolerance : α}
    {result : Except (CalculationError α) Step}
    (advanced : h.advance tolerance = (next, result)) :
    ∃ u choice, h.latest.evaluate.selectPivot tolerance = (u, choice) ∧
      h.Makes tolerance u choice next result := by
  unfold advance at advanced
  cases chosen : h.latest.evaluate.selectPivot tolerance with
  | mk u choice =>
    refine ⟨u, choice, rfl, ?_⟩
    rw [chosen] at advanced
    cases choice with
    | error e => cases advanced; rfl
    | ok choice =>
      cases choice with
      | optimal => cases advanced; exact ⟨rfl, rfl⟩
      | unbounded s => cases advanced; exact ⟨rfl, rfl⟩
      | pivot p =>
        simp only at advanced
        split at advanced
        · cases advanced; rfl
        · rename_i made pivoted
          split at advanced
          · cases advanced; rfl
          · rename_i later
            split at advanced
            · cases advanced; rfl
            · rename_i unit
              cases advanced
              exact ⟨p, made, rfl, pivoted, by omega, unit, rfl, rfl⟩

end History

/-- The tableaux that pivots lead to from the first one, each with the earlier ones, newest
    first. -/
inductive Reached (form : StandardForm α) (tolerance : α) : List (Tableau α) → Tableau α → Prop
  | initial {t : Tableau α} (made : Tableau.initial form = .ok t) : Reached form tolerance [] t
  | pivoted {earlier : List (Tableau α)} {t u next : Tableau α} {p : Pivot α}
      (reached : Reached form tolerance earlier t)
      (chosen : t.evaluate.selectPivot tolerance = (u, .ok (.pivot p)))
      (made : u.pivoted form.symbols = .ok next) : Reached form tolerance (u :: earlier) next

/-- Every tableau of a history that was reached is reached by those before it. -/
theorem Reached.getElem? {form : StandardForm α} {tolerance : α} {earlier : List (Tableau α)}
    {t u v : Tableau α} (h : Reached form tolerance earlier t) (same : u.bare = t.bare) {k : Nat}
    (found : (earlier.reverse ++ [u])[k]? = some v) :
    ∃ plain, Reached form tolerance ((earlier.reverse ++ [u]).take k).reverse plain ∧
      v.bare = plain.bare := by
  induction h generalizing u k with
  | @initial t made =>
    obtain ⟨rfl, rfl⟩ : k = 0 ∧ u = v := by
      simpa [List.getElem?_singleton] using found
    exact ⟨t, .initial made, same⟩
  | @pivoted earlier t w next p reached chosen made ih =>
    rw [List.reverse_cons] at found ⊢
    by_cases before : k < (earlier.reverse ++ [w]).length
    · -- the tableau stands before the last pivot
      rw [List.getElem?_append_left before] at found
      rw [List.take_append_of_le_length before.le]
      exact ih (Tableau.bare_of_selected chosen) found
    · have last := List.getElem?_eq_some_iff.mp found
      obtain ⟨inside, rfl⟩ := last
      have own : k = (earlier.reverse ++ [w]).length := by
        simp only [List.length_append, List.length_singleton] at before inside ⊢
        omega
      subst own
      refine ⟨next, ?_, ?_⟩
      · rw [List.take_left]
        simpa using Reached.pivoted reached chosen made
      · simpa using same

/-- A history of a problem whose last tableau came out of a look for a pivot with this answer. -/
def History.Answers (h : History α) (p : Problem α) (tolerance : α)
    (answer : Except (CalculationError α) (PivotChoice α) → Prop) : Prop :=
  StandardForm.ofProblem p = .ok h.form ∧ ∃ t choice, Reached h.form tolerance h.earlier t ∧
    t.evaluate.selectPivot tolerance = (h.latest, choice) ∧ answer choice

namespace Session

/-- What is true of a session between calls. -/
structure Lawful (p : Problem α) (tolerance : α) (s : Session α) : Prop where
  ownProblem : s.problem = p
  ownTolerance : s.tolerance = tolerance
  history : match s.phase with
    | .building | .framingFailed => True
    | .iterating h => StandardForm.ofProblem p = .ok h.form ∧
        Reached h.form tolerance h.earlier h.latest
    | .optimal h => h.Answers p tolerance fun choice => choice = .ok .optimal
    | .unbounded h => h.Answers p tolerance fun choice => ∃ s, choice = .ok (.unbounded s)
    | .calculationFailed h => h.Answers p tolerance fun _ => True

/-- A call on a session. -/
inductive Call where
  | frame
  | step
  | run (maxPivots : Nat)

/-- The session after a call. -/
def call (s : Session α) : Call → Session α
  | .frame => s.frame.1
  | .step => s.step.1
  | .run maxPivots => (s.run maxPivots).1

/-- The session after a sequence of calls. -/
def after (s : Session α) (calls : List Call) : Session α := calls.foldl call s

/-- Framing and stepping keep the property. -/
structure Kept (P : Session α → Prop) : Prop where
  frame {s : Session α} : P s → P s.frame.1
  step {s : Session α} : P s → P s.step.1

namespace Kept

variable {P : Session α → Prop} (kept : Kept P) {s : Session α}
include kept

theorem runPivots (h : P s) (pivots : Nat) : P (s.runPivots pivots).1 := by
  induction pivots generalizing s with
  | zero =>
    have stepped := kept.step h
    unfold Session.runPivots
    split
    · exact h
    · split <;> (rename_i result; rw [result] at stepped; exact stepped)
  | succ n ih =>
    have stepped := kept.step h
    unfold Session.runPivots
    split <;> (rename_i result; rw [result] at stepped)
    · exact ih stepped
    · exact stepped
    · exact stepped

theorem run (h : P s) (pivots : Nat) : P (s.run pivots).1 := by
  unfold Session.run
  split
  · exact h
  · exact h
  · exact kept.runPivots h pivots

theorem call (h : P s) (c : Call) : P (s.call c) := by
  cases c with
  | frame => exact kept.frame h
  | step => exact kept.step h
  | run maxPivots => exact kept.run h maxPivots

/-- What framing and stepping keep holds after every sequence of calls. -/
theorem after (h : P s) (calls : List Call) : P (s.after calls) := by
  induction calls generalizing s with
  | nil => exact h
  | cons c rest ih => exact ih (kept.call h c)

end Kept

theorem firstHistory_ok {p : Problem α} {h : History α} (framed : firstHistory p = .ok h) :
    StandardForm.ofProblem p = .ok h.form ∧ Tableau.initial h.form = .ok h.latest ∧
      h.earlier = [] := by
  unfold firstHistory at framed
  cases form : StandardForm.ofProblem p with
  | error e => rw [form] at framed; cases framed
  | ok f =>
    rw [form] at framed
    cases first : Tableau.initial f with
    | error e =>
      simp only [bind, Except.bind, first] at framed
      cases framed
    | ok t =>
      simp only [bind, Except.bind, first] at framed
      cases framed
      exact ⟨rfl, first, rfl⟩

theorem frame_ok {s next : Session α} {first : Tableau α} (framed : s.frame = (next, .ok first)) :
    ∃ h, firstHistory s.problem = .ok h ∧ next = { s with phase := .iterating h } := by
  unfold frame at framed
  split at framed
  · split at framed
    · rename_i h begun
      cases framed
      exact ⟨h, begun, rfl⟩
    · cases framed
  · cases framed

namespace Lawful

variable {p : Problem α} {tolerance : α} {s : Session α}

theorem ofProblem : (Session.ofProblem p tolerance).Lawful p tolerance := ⟨rfl, rfl, trivial⟩

theorem frame (h : s.Lawful p tolerance) : s.frame.1.Lawful p tolerance := by
  unfold Session.frame
  split
  · split
    · rename_i first framed
      rw [h.ownProblem] at framed
      obtain ⟨form, made, none⟩ := firstHistory_ok framed
      refine ⟨h.ownProblem, h.ownTolerance, form, ?_⟩
      rw [none]
      exact .initial made
    · exact ⟨h.ownProblem, h.ownTolerance, trivial⟩
  · exact h

theorem step (h : s.Lawful p tolerance) : s.step.1.Lawful p tolerance := by
  obtain ⟨problem, tol, phase⟩ := s
  obtain ⟨rfl, rfl, history⟩ := h
  cases phase with
  | building | optimal | unbounded | framingFailed | calculationFailed =>
    exact ⟨rfl, rfl, history⟩
  | iterating earlier =>
    obtain ⟨form, reached⟩ := history
    cases advanced : earlier.advance tol with
    | mk next result =>
      have parts := History.advance_ok advanced
      simp only [Session.step, advanced]
      cases result with
      | error e =>
        obtain ⟨u, choice, chosen, rfl⟩ := parts
        exact ⟨rfl, rfl, form, _, _, reached, chosen, trivial⟩
      | ok step =>
        cases step with
        | optimal =>
          obtain ⟨u, choice, chosen, found, rfl⟩ := parts
          exact ⟨rfl, rfl, form, _, _, reached, chosen, found⟩
        | unbounded column =>
          obtain ⟨u, choice, chosen, found, rfl⟩ := parts
          exact ⟨rfl, rfl, form, _, _, reached, chosen, column, found⟩
        | pivoted iteration =>
          obtain ⟨u, choice, chosen, pivot, made, rfl, pivoted, _, _, _, rfl⟩ := parts
          exact ⟨rfl, rfl, form, .pivoted reached chosen pivoted⟩

theorem kept : Kept fun s : Session α => s.Lawful p tolerance := ⟨frame, step⟩

theorem run (h : s.Lawful p tolerance) (pivots : Nat) : (s.run pivots).1.Lawful p tolerance :=
  kept.run h pivots

/-- Every session is lawful, whatever was called on it. -/
theorem after (h : s.Lawful p tolerance) (calls : List Call) :
    (s.after calls).Lawful p tolerance := kept.after h calls

/-- A lawful session has no tableaux yet, or it has those of a history that was reached, the last
    one perhaps with marks. -/
theorem tableaux_eq (h : s.Lawful p tolerance) : s.tableaux = [] ∨
    ∃ form earlier t u, StandardForm.ofProblem p = .ok form ∧ Reached form tolerance earlier t ∧
      u.bare = t.bare ∧ s.tableaux = earlier.reverse ++ [u] := by
  obtain ⟨problem, tol, phase⟩ := s
  obtain ⟨_, _, history⟩ := h
  cases phase with
  | building | framingFailed => exact .inl rfl
  | iterating h => exact .inr ⟨h.form, h.earlier, h.latest, h.latest, history.1, history.2, rfl, rfl⟩
  | optimal h | unbounded h | calculationFailed h =>
    obtain ⟨form, t, choice, reached, chosen, _⟩ := history
    exact .inr ⟨h.form, h.earlier, t, h.latest, form, reached, Tableau.bare_of_selected chosen, rfl⟩

/-- Every tableau of a lawful session is reached by those before it, up to marks. -/
theorem reached_of_getElem? (h : s.Lawful p tolerance) {first : History α}
    (framed : firstHistory p = .ok first) {k : Nat} {t : Tableau α}
    (found : s.tableaux[k]? = some t) :
    ∃ plain, Reached first.form tolerance (s.tableaux.take k).reverse plain ∧
      t.bare = plain.bare := by
  rcases h.tableaux_eq with none | ⟨form, earlier, last, u, known, reached, same, all⟩
  · rw [none] at found
    cases found
  · have own : first.form = form := Except.ok.inj ((firstHistory_ok framed).1.symm.trans known)
    rw [all] at found ⊢
    rw [own]
    exact reached.getElem? same found

/-- The solution of a session is read off its last tableau. -/
theorem solution_ok (h : s.Lawful p tolerance) {first : History α}
    (framed : firstHistory p = .ok first) {solution : Solution α}
    (found : s.solution? = some solution) :
    ∃ last, s.tableaux.getLast? = some last ∧
      solution = Solution.ofTableau first.form last := by
  obtain ⟨problem, tol, phase⟩ := s
  obtain ⟨_, _, history⟩ := h
  cases phase with
  | building | iterating | unbounded | framingFailed | calculationFailed => cases found
  | optimal h =>
    have own : first.form = h.form :=
      Except.ok.inj ((firstHistory_ok framed).1.symm.trans history.1)
    cases found
    exact ⟨h.latest, by simp [tableaux, history?, History.tableaux], by rw [own]⟩

end Lawful

/-! ### Runs and reports -/

def phaseOf (h : History α) : Step → Phase α
  | .optimal => .optimal h
  | .unbounded _ => .unbounded h
  | .pivoted _ => .iterating h

theorem step_ok {s next : Session α} {step : Step} (stepped : s.step = (next, .ok step)) :
    ∃ h made, s.phase = .iterating h ∧ h.advance s.tolerance = (made, .ok step) ∧
      next = { s with phase := phaseOf made step } := by
  obtain ⟨problem, tolerance, phase⟩ := s
  cases phase with
  | building | optimal | unbounded | framingFailed | calculationFailed => cases stepped
  | iterating h =>
    refine ⟨h, ?_⟩
    cases advanced : h.advance tolerance with
    | mk made result =>
      simp only [Session.step, advanced] at stepped
      cases result with
      | error e => cases stepped
      | ok found => cases found <;> cases stepped <;> exact ⟨made, rfl, rfl, rfl⟩

/-- A step that pivots marks the last tableau and puts the next one behind it. -/
theorem tableaux_pivoted {s next : Session α} {iteration : Nat}
    (stepped : s.step = (next, .ok (.pivoted iteration))) :
    ∃ earlier last before made, s.tableaux = earlier ++ [last] ∧ before.bare = last.bare ∧
      next.tableaux = earlier ++ [before, made] := by
  obtain ⟨h, made, phase, advanced, rfl⟩ := step_ok stepped
  obtain ⟨u, _, chosen, p, t, _, _, _, _, _, rfl⟩ := History.advance_ok advanced
  refine ⟨h.earlier.reverse, h.latest, u, t, ?_, Tableau.bare_of_selected chosen, ?_⟩
  · simp [tableaux, history?, phase, History.tableaux]
  · simp [tableaux, history?, phaseOf, History.tableaux]

theorem runPivots_ok {s next : Session α} {pivots : Nat} {termination : Termination}
    (ran : s.runPivots pivots = (next, .ok termination)) : termination = next.termination := by
  induction pivots generalizing s with
  | zero =>
    unfold runPivots at ran
    split at ran
    · rename_i pending
      cases ran
      unfold needsPivot at pending
      split at pending
      · rename_i h phase
        simp [Session.termination, phase]
      · cases pending
    · split at ran <;> cases ran
      rfl
  | succ n ih =>
    unfold runPivots at ran
    split at ran
    · exact ih ran
    · cases ran; rfl
    · cases ran

theorem run_ok {s next : Session α} {pivots : Nat} {termination : Termination}
    (ran : s.run pivots = (next, .ok termination)) : termination = next.termination := by
  unfold run at ran
  split at ran
  · rename_i h phase
    cases ran
    simp [Session.termination, phase]
  · rename_i h phase
    cases ran
    simp [Session.termination, phase]
  · exact runPivots_ok ran

/-- A run that does not stop has used up its pivots. -/
theorem length_runPivots {s next : Session α} {pivots : Nat}
    (ran : s.runPivots pivots = (next, .ok .notTerminated)) :
    s.tableaux.length + pivots ≤ next.tableaux.length := by
  induction pivots generalizing s with
  | zero =>
    have own := runPivots_ok ran
    unfold runPivots at ran
    split at ran
    · cases ran; simp
    · rename_i settled
      split at ran
      · rename_i mid step stepped
        obtain ⟨rfl, _⟩ := Prod.mk.inj ran
        cases step with
        | pivoted iteration =>
          obtain ⟨earlier, last, before, made, old, _, new⟩ := tableaux_pivoted stepped
          rw [old, new]
          simp
        | optimal | unbounded =>
          obtain ⟨_, _, _, _, rfl⟩ := step_ok stepped
          cases own
      · cases ran
  | succ n ih =>
    have own := runPivots_ok ran
    unfold runPivots at ran
    split at ran
    · rename_i mid iteration stepped
      obtain ⟨earlier, last, before, made, old, _, new⟩ := tableaux_pivoted stepped
      have grown := ih ran
      rw [new] at grown
      rw [old]
      simp only [List.length_append, List.length_cons, List.length_nil] at grown ⊢
      omega
    · rename_i mid step other stepped
      obtain ⟨rfl, _⟩ := Prod.mk.inj ran
      cases step with
      | pivoted iteration => exact (other _ rfl).elim
      | optimal | unbounded =>
        obtain ⟨_, _, _, _, rfl⟩ := step_ok stepped
        cases own
    · cases ran

end Session

/-- What is checked of a result by computing it holds of a result. -/
theorem exists_ok {ε β : Type} (result : Except ε β) (check : β → Bool)
    (checked : result.toOption.any check = true) : ∃ x, result = .ok x ∧ check x = true := by
  cases result with
  | error e => cases checked
  | ok x => exact ⟨x, rfl, checked⟩

namespace Solver

variable {solver : Solver α} {p : Problem α} {report : Report α}

/-- A report is read off a lawful session that has stopped. -/
theorem solve_ok (solved : solver.solve p = .ok report) :
    ∃ s : Session α, s.Lawful p solver.tolerance ∧ report.termination = s.termination ∧
      report.termination ≠ .notTerminated ∧ s.standardForm? = some report.standardForm ∧
      report.tableaux = s.tableaux ∧ report.solution = s.solution? := by
  have framed : ((solver.session p).frame.1).Lawful p solver.tolerance := .frame .ofProblem
  unfold solve at solved
  split at solved
  · cases solved
  · rename_i s _ started
    rw [started] at framed
    split at solved
    · cases solved
    · cases solved
    · rename_i last termination stopped ran
      have lawful := framed.run solver.maxIterations
      rw [ran] at lawful
      split at solved
      · cases solved
      · rename_i form known
        cases solved
        exact ⟨last, lawful, Session.run_ok ran, fun same => stopped same, known, rfl, rfl⟩

/-- An optimal report: pivots led to a tableau in which no column enters. -/
theorem solve_optimal (solved : solver.solve p = .ok report)
    (optimal : report.termination = .optimal) :
    ∃ earlier t u, StandardForm.ofProblem p = .ok report.standardForm ∧
      Reached report.standardForm solver.tolerance earlier t ∧
      t.evaluate.selectPivot solver.tolerance = (u, .ok .optimal) ∧
      report.tableaux = earlier.reverse ++ [u] ∧
      report.solution = some (Solution.ofTableau report.standardForm u) := by
  obtain ⟨s, lawful, termination, _, known, tableaux, solution⟩ := solve_ok solved
  rw [optimal] at termination
  rw [tableaux, solution]
  obtain ⟨problem, tolerance, phase⟩ := s
  obtain ⟨_, _, history⟩ := lawful
  cases phase with
  | optimal h =>
    obtain ⟨form, t, choice, reached, chosen, rfl⟩ := history
    have own : h.form = report.standardForm := Option.some.inj known
    rw [← own]
    exact ⟨h.earlier, t, h.latest, form, reached, chosen, rfl, rfl⟩
  | building | iterating | unbounded | framingFailed | calculationFailed => cases termination

/-- An unbounded report: pivots led to a tableau in which a column enters and no row leaves. -/
theorem solve_unbounded (solved : solver.solve p = .ok report)
    (unbounded : report.termination = .unbounded) :
    ∃ earlier t u s, StandardForm.ofProblem p = .ok report.standardForm ∧
      Reached report.standardForm solver.tolerance earlier t ∧
      t.evaluate.selectPivot solver.tolerance = (u, .ok (.unbounded s)) ∧
      report.tableaux = earlier.reverse ++ [u] := by
  obtain ⟨s, lawful, termination, _, known, tableaux, _⟩ := solve_ok solved
  rw [unbounded] at termination
  rw [tableaux]
  obtain ⟨problem, tolerance, phase⟩ := s
  obtain ⟨_, _, history⟩ := lawful
  cases phase with
  | unbounded h =>
    obtain ⟨form, t, choice, reached, chosen, s, rfl⟩ := history
    have own : h.form = report.standardForm := Option.some.inj known
    rw [← own]
    exact ⟨h.earlier, t, h.latest, s, form, reached, chosen, rfl⟩
  | building | iterating | optimal | framingFailed | calculationFailed => cases termination

/-- A solve that is stopped by its limit has made more tableaux than pivots were allowed. -/
theorem solve_iterationLimit {limit : Nat} {tableaux : List (Tableau α)}
    (stopped : solver.solve p = .error (.iterationLimit limit tableaux)) :
    ∃ s : Session α, s.Lawful p solver.tolerance ∧
      solver.maxIterations < s.tableaux.length := by
  have framed : ((solver.session p).frame.1).Lawful p solver.tolerance := .frame .ofProblem
  unfold solve at stopped
  split at stopped
  · cases stopped
  · rename_i s first started
    rw [started] at framed
    split at stopped
    · cases stopped
    · rename_i last ran
      have lawful := framed.run solver.maxIterations
      rw [ran] at lawful
      obtain ⟨h, begun, rfl⟩ := Session.frame_ok started
      obtain ⟨_, _, none⟩ := Session.firstHistory_ok begun
      have grown := Session.length_runPivots ran
      have one : h.tableaux.length = 1 := by simp [History.tableaux, none]
      refine ⟨last, lawful, ?_⟩
      simp only [Session.tableaux, Session.history?, Option.map_some, Option.getD_some, one]
        at grown ⊢
      omega
    · split at stopped <;> cases stopped

end Solver

end Simplex
