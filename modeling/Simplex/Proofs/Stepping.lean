import Simplex.Proofs.Calculation
import Simplex.Proofs.Double
import Simplex.Proofs.Growth
import Mathlib.Data.ENat.Lattice

/-!
Runs as steps. What a run finds out on a copy of its last tableau is just whether one more step
would pivot. So a run makes the steps that its limit allows, and the one after them if that one
stops the session; where it pauses, nothing tells that it looked ahead.
-/
namespace Simplex

open Scalar (UnitLaws)

variable {α : Type} [Scalar α]

namespace Session

variable {s : Session α} {k m n : Nat}

/-! ### Steps -/

/-- The session after a number of steps. -/
def steps (s : Session α) (n : Nat) : Session α := s.after (List.replicate n .step)

theorem steps_add (s : Session α) (m n : Nat) : s.steps (m + n) = (s.steps m).steps n := by
  rw [steps, List.replicate_add, after, List.foldl_append]
  rfl

/-- The first steps all pivot, that many of them. -/
def Pivots (s : Session α) (n : Nat) : Prop :=
  ∀ k < n, ∃ iteration, (s.steps k).step.2 = .ok (.pivoted iteration)

/-- The number of steps that pivot before the first that does not. -/
noncomputable def pivotCount (s : Session α) : ℕ∞ := ⨆ n ∈ {n : Nat | s.Pivots n}, (n : ℕ∞)

/-- That many steps pivot, and the one after them does not. -/
def StopsAfter (s : Session α) (k : Nat) : Prop := s.Pivots k ∧ ¬ s.Pivots (k + 1)

instance decidablePivoted (result : Except (CalculationError α) Step) :
    Decidable (∃ iteration, result = .ok (.pivoted iteration)) :=
  match result with
  | .ok (.pivoted iteration) => .isTrue ⟨iteration, rfl⟩
  | .ok .optimal | .ok (.unbounded _) | .error _ => .isFalse (by simp)

instance (s : Session α) (n : Nat) : Decidable (s.Pivots n) :=
  inferInstanceAs (Decidable (∀ k < n, ∃ iteration, (s.steps k).step.2 = .ok (.pivoted iteration)))

instance (s : Session α) (k : Nat) : Decidable (s.StopsAfter k) :=
  inferInstanceAs (Decidable (s.Pivots k ∧ ¬ s.Pivots (k + 1)))

theorem pivots_zero (s : Session α) : s.Pivots 0 := fun _ below => absurd below (Nat.not_lt_zero _)

theorem Pivots.mono (h : s.Pivots n) (le : m ≤ n) : s.Pivots m :=
  fun k below => h k (below.trans_le le)

theorem pivots_add : s.Pivots (m + n) ↔ s.Pivots m ∧ (s.steps m).Pivots n := by
  constructor
  · intro h
    refine ⟨h.mono (Nat.le_add_right m n), ?_⟩
    intro k below
    rw [← steps_add]
    exact h (m + k) (by omega)
  · rintro ⟨first, rest⟩ k below
    by_cases early : k < m
    · exact first k early
    · have later := rest (k - m) (by omega)
      rw [← steps_add] at later
      rwa [show m + (k - m) = k by omega] at later

theorem pivots_one : s.Pivots 1 ↔ ∃ iteration, s.step = (s.steps 1, .ok (.pivoted iteration)) := by
  constructor
  · intro h
    obtain ⟨iteration, pivoted⟩ := h 0 Nat.one_pos
    exact ⟨iteration, Prod.ext rfl pivoted⟩
  · rintro ⟨iteration, stepped⟩ k below
    obtain rfl := Nat.lt_one_iff.mp below
    exact ⟨iteration, congrArg Prod.snd stepped⟩

/-- The first step pivots, and then as many as are left. -/
theorem pivots_succ : s.Pivots (n + 1) ↔ s.Pivots 1 ∧ (s.steps 1).Pivots n := by
  rw [Nat.add_comm, pivots_add]

theorem StopsAfter.of_add (h : s.StopsAfter (m + k)) : (s.steps m).StopsAfter k := by
  obtain ⟨pivots, stops⟩ := h
  obtain ⟨first, rest⟩ := pivots_add.mp pivots
  exact ⟨rest, fun more => stops ((pivots_add (m := m) (n := k + 1)).mpr ⟨first, more⟩)⟩

/-- Steps that do not all pivot stop pivoting somewhere. -/
theorem exists_stopsAfter (h : ¬ s.Pivots (n + 1)) : ∃ k ≤ n, s.StopsAfter k := by
  induction n with
  | zero => exact ⟨0, le_rfl, s.pivots_zero, h⟩
  | succ n ih =>
    by_cases pivots : s.Pivots (n + 1)
    · exact ⟨n + 1, le_rfl, pivots, h⟩
    · obtain ⟨k, below, stops⟩ := ih pivots
      exact ⟨k, by omega, stops⟩

theorem Pivots.le_pivotCount (h : s.Pivots n) : (n : ℕ∞) ≤ s.pivotCount :=
  le_iSup₂ (f := fun (n : Nat) (_ : n ∈ {n : Nat | s.Pivots n}) => (n : ℕ∞)) n h

theorem StopsAfter.pivotCount_eq (h : s.StopsAfter k) : s.pivotCount = k := by
  apply le_antisymm
  · refine iSup₂_le fun n pivots => ?_
    have bound : n ≤ k := by
      by_contra beyond
      exact h.2 (Pivots.mono pivots (by omega))
    exact_mod_cast bound
  · exact h.1.le_pivotCount

theorem lt_pivotCount_iff : (n : ℕ∞) < s.pivotCount ↔ s.Pivots (n + 1) := by
  constructor
  · intro more
    by_contra stopped
    obtain ⟨k, bound, stops⟩ := exists_stopsAfter stopped
    rw [stops.pivotCount_eq] at more
    have beyond : n < k := by exact_mod_cast more
    omega
  · intro pivots
    have next : (n : ℕ∞) < ((n + 1 : Nat) : ℕ∞) := by exact_mod_cast Nat.lt_succ_self n
    exact next.trans_le pivots.le_pivotCount

theorem pivotCount_eq_iff : s.pivotCount = k ↔ s.StopsAfter k := by
  refine ⟨fun count => ?_, StopsAfter.pivotCount_eq⟩
  have stopped : ¬ s.Pivots (k + 1) := by
    rw [← lt_pivotCount_iff, count]
    exact lt_irrefl _
  obtain ⟨j, _, stops⟩ := exists_stopsAfter stopped
  have same : (j : ℕ∞) = k := stops.pivotCount_eq.symm.trans count
  obtain rfl : j = k := by exact_mod_cast same
  exact stops

/-! ### Tableaux along the steps -/

theorem length_steps (pivots : s.Pivots n) :
    (s.steps n).tableaux.length = s.tableaux.length + n := by
  induction n with
  | zero => rfl
  | succ n ih =>
    obtain ⟨before, last⟩ := pivots_add.mp pivots
    obtain ⟨iteration, stepped⟩ := pivots_one.mp last
    obtain ⟨earlier, _, _, _, old, _, new⟩ := tableaux_pivoted stepped
    have grown := ih before
    rw [old] at grown
    rw [steps_add, new]
    simp only [List.length_append, List.length_cons, List.length_nil] at grown ⊢
    omega

theorem keeps_steps (s : Session α) (n : Nat) : s.Keeps (s.steps n) := by
  induction n with
  | zero => exact .refl s
  | succ n ih =>
    rw [steps_add]
    exact ih.trans (keeps_step _)

/-! ### Sessions that have stopped -/

/-- A session has stopped, at an optimum or because the problem is unbounded. -/
def Ended (s : Session α) : Prop := s.termination = .optimal ∨ s.termination = .unbounded

theorem Ended.run_eq (h : s.Ended) (n : Nat) : s.run n = (s, .ok s.termination) := by
  unfold run
  cases phase : s.phase with
  | optimal | unbounded => rfl
  | building | iterating | framingFailed | calculationFailed =>
    simp [Ended, termination, phase] at h

theorem Ended.step_eq (h : s.Ended) : s.step = (s, .error (.terminated s.termination)) := by
  unfold step
  cases phase : s.phase with
  | optimal | unbounded => rfl
  | building | iterating | framingFailed | calculationFailed =>
    simp [Ended, termination, phase] at h

theorem Ended.steps_one (h : s.Ended) : s.steps 1 = s := congrArg Prod.fst h.step_eq

theorem Ended.not_pivots (h : s.Ended) : ¬ s.Pivots 1 := by
  intro pivots
  obtain ⟨iteration, stepped⟩ := pivots_one.mp pivots
  rw [h.step_eq, Prod.mk.injEq] at stepped
  cases stepped.2

/-! ### Sessions that were framed -/

variable [UnitLaws α] {p : Problem α} {tolerance : α}

/-- A session that was framed, and whose calculation has not failed. -/
structure Framed (p : Problem α) (tolerance : α) (s : Session α) : Prop extends
    s.Sound p tolerance where
  framed : s.history?.isSome = true

namespace Framed

theorem kept (nonneg : ¬ tolerance < 0) : Kept fun s : Session α => s.Framed p tolerance where
  frame h := ⟨(Sound.kept nonneg).frame h.toSound, kept_history.frame h.framed⟩
  step h := ⟨(Sound.kept nonneg).step h.toSound, kept_history.step h.framed⟩

theorem steps (h : s.Framed p tolerance) (nonneg : ¬ tolerance < 0) (n : Nat) :
    (s.steps n).Framed p tolerance := (kept nonneg).after h _

end Framed

omit [UnitLaws α] in
theorem Framed.phase_cases (h : s.Framed p tolerance) :
    (∃ history, s.phase = .iterating history) ∨ s.Ended := by
  cases phase : s.phase with
  | iterating history => exact .inl ⟨history, rfl⟩
  | optimal => exact .inr (.inl (by simp [termination, phase]))
  | unbounded => exact .inr (.inr (by simp [termination, phase]))
  | building | framingFailed =>
    have framed := h.framed
    simp [history?, phase] at framed
  | calculationFailed =>
    have unfailed := h.unfailed
    simp [termination, phase] at unfailed

omit [UnitLaws α] in
theorem Framed.iterating_of_pivots (h : s.Framed p tolerance) (pivots : s.Pivots 1) :
    ∃ history, s.phase = .iterating history := by
  rcases h.phase_cases with iterating | ended
  · exact iterating
  · exact absurd pivots ended.not_pivots

/-- Where a run pauses, the last tableau is as pivoting made it: it is not evaluated. -/
theorem Framed.not_evaluated (h : s.Framed p tolerance) (pivots : s.Pivots 1) : ∃ last,
    s.tableaux.getLast? = some last ∧ last.isEvaluated = false ∧ last.bare = last := by
  obtain ⟨history, phase⟩ := h.iterating_of_pivots pivots
  have lawful := h.lawful.history
  rw [phase] at lawful
  have plain := lawful.2.bare_eq
  refine ⟨history.latest, ?_, ?_, plain⟩
  · rw [tableaux_of_iterating phase]
    exact List.getLast?_concat
  · -- a column enters, so there is a column, and an evaluated tableau has a cost for each
    obtain ⟨iteration, stepped⟩ := pivots_one.mp pivots
    obtain ⟨_, made, again, advanced, _⟩ := step_ok stepped
    obtain rfl : history = _ := Phase.iterating.inj (phase.symm.trans again)
    obtain ⟨u, choice, chosen, q, _, rfl, _⟩ := History.advance_ok advanced
    obtain ⟨_, entering, _⟩ := Tableau.selectPivot_ok chosen
    have column : q.column ∈ history.latest.columns :=
      Tableau.mem_columns_of_entering (t := history.latest.evaluate) entering
    have costs : history.latest.relativeCosts = [] := by rw [← plain]; rfl
    rw [Tableau.isEvaluated, costs]
    cases columns : history.latest.columns with
    | nil => simp [columns] at column
    | cons s rest => rfl

namespace Framed

variable (h : s.Framed p tolerance) (nonneg : ¬ tolerance < 0)
include h nonneg

/-- While a session iterates, a step either pivots, as a look ahead tells, or ends the session. -/
theorem step_cases {history : History α} (phase : s.phase = .iterating history) :
    (s.Pivots 1 ∧ s.needsPivot = true) ∨
      (¬ s.Pivots 1 ∧ s.needsPivot = false ∧ (s.steps 1).Ended ∧
        ∃ step, s.step = (s.steps 1, .ok step)) := by
  obtain ⟨next, step, stepped⟩ := h.lawful.step_isOk nonneg phase
  have own : s.steps 1 = next := congrArg Prod.fst stepped
  obtain ⟨_, made, again, advanced, ends⟩ := step_ok stepped
  obtain rfl : history = _ := Phase.iterating.inj (phase.symm.trans again)
  obtain ⟨u, choice, chosen, makes⟩ := History.advance_ok advanced
  have pivots : s.Pivots 1 ↔ ∃ iteration, step = .pivoted iteration := by
    rw [pivots_one, stepped, own]
    simp
  rw [pivots, own]
  cases step with
  | pivoted iteration =>
    obtain ⟨p, _, rfl, _⟩ := makes
    exact .inl ⟨⟨iteration, rfl⟩, by simp [needsPivot, phase, chosen]⟩
  | optimal =>
    obtain ⟨rfl, _⟩ := makes
    have looked : s.needsPivot = false := by simp [needsPivot, phase, chosen]
    exact .inr ⟨by simp, looked, .inl (by rw [ends]; rfl), _, stepped⟩
  | unbounded column =>
    obtain ⟨rfl, _⟩ := makes
    have looked : s.needsPivot = false := by simp [needsPivot, phase, chosen]
    exact .inr ⟨by simp, looked, .inr (by rw [ends]; rfl), _, stepped⟩

/-- A step that does not pivot ends the session, if it has not ended before. -/
theorem ended_of_not_pivots (stops : ¬ s.Pivots 1) : (s.steps 1).Ended := by
  rcases h.phase_cases with ⟨history, phase⟩ | ended
  · rcases h.step_cases nonneg phase with ⟨pivots, _⟩ | ⟨_, _, ended, _⟩
    · exact absurd pivots stops
    · exact ended
  · rw [ended.steps_one]
    exact ended

theorem ended_of_stopsAfter (stops : s.StopsAfter k) : (s.steps (k + 1)).Ended := by
  rw [steps_add]
  refine (h.steps nonneg k).ended_of_not_pivots nonneg fun pivots => stops.2 ?_
  exact pivots_add.mpr ⟨stops.1, pivots⟩

/-! ### Runs -/

/-- With one pivot more to come than its limit allows, a run makes its steps and pauses. -/
theorem runPivots_of_pivots (pivots : s.Pivots (n + 1)) :
    s.runPivots n = (s.steps n, .ok .notTerminated) := by
  induction n generalizing s with
  | zero =>
    obtain ⟨history, phase⟩ := h.iterating_of_pivots pivots
    rcases h.step_cases nonneg phase with ⟨_, looked⟩ | ⟨stops, _⟩
    · rw [runPivots, if_pos looked]
      rfl
    · exact absurd pivots stops
  | succ n ih =>
    obtain ⟨first, rest⟩ := pivots_succ.mp pivots
    obtain ⟨iteration, stepped⟩ := pivots_one.mp first
    rw [runPivots, stepped]
    exact ih (h.steps nonneg 1) rest

/-- A run that gets to the last pivot makes one step more, which ends the session. -/
theorem runPivots_of_stopsAfter {history : History α} (phase : s.phase = .iterating history)
    (stops : s.StopsAfter k) (le : k ≤ n) :
    s.runPivots n = (s.steps (k + 1), .ok (s.steps (k + 1)).termination) := by
  induction k generalizing s n history with
  | zero =>
    rcases h.step_cases nonneg phase with ⟨pivots, _⟩ | ⟨_, looked, _, step, stepped⟩
    · exact absurd pivots stops.2
    · cases n with
      | zero => rw [runPivots, looked, stepped]; rfl
      | succ n =>
        have other : ∀ iteration, step ≠ .pivoted iteration := by
          rintro iteration rfl
          exact stops.2 (pivots_one.mpr ⟨iteration, stepped⟩)
        rw [runPivots, stepped]
        cases step with
        | pivoted iteration => exact absurd rfl (other iteration)
        | optimal | unbounded => rfl
  | succ k ih =>
    obtain ⟨n, rfl⟩ : ∃ m, n = m + 1 := ⟨n - 1, by omega⟩
    obtain ⟨iteration, stepped⟩ := pivots_one.mp (stops.1.mono (by omega))
    obtain ⟨_, made, _, _, next⟩ := step_ok stepped
    have later : (s.steps 1).phase = .iterating made := by rw [next]; rfl
    rw [Nat.add_comm k 1] at stops
    have rest := ih (h.steps nonneg 1) later stops.of_add (Nat.le_of_succ_le_succ le)
    rw [runPivots, stepped, Nat.add_comm k 1, Nat.add_assoc, steps_add]
    exact rest

theorem run_of_pivots (pivots : s.Pivots (n + 1)) : s.run n = (s.steps n, .ok .notTerminated) := by
  obtain ⟨history, phase⟩ := h.iterating_of_pivots (pivots.mono (by omega))
  unfold run
  rw [phase]
  exact h.runPivots_of_pivots nonneg pivots

theorem run_of_stopsAfter (stops : s.StopsAfter k) (le : k ≤ n) :
    s.run n = (s.steps (k + 1), .ok (s.steps (k + 1)).termination) := by
  rcases h.phase_cases with ⟨history, phase⟩ | ended
  · unfold run
    rw [phase]
    exact h.runPivots_of_stopsAfter nonneg phase stops le
  · -- nothing pivots after the end, and the step that is refused changes nothing
    have first : k = 0 := by
      by_contra later
      exact ended.not_pivots (stops.1.mono (by omega))
    subst first
    rw [ended.run_eq, ended.steps_one]

/-- Two runs are one run with both limits. -/
theorem run_run (a b : Nat) : (s.run a).1.run b = s.run (a + b) := by
  by_cases pivots : s.Pivots (a + 1)
  · rw [h.run_of_pivots nonneg pivots]
    have later := h.steps nonneg a
    have first := pivots.mono (Nat.le_succ a)
    by_cases more : s.Pivots (a + b + 1)
    · have rest := (pivots_add (m := a) (n := b + 1)).mp more
      rw [h.run_of_pivots nonneg more, later.run_of_pivots nonneg rest.2, steps_add]
    · obtain ⟨k, bound, stops⟩ := exists_stopsAfter more
      have beyond : a ≤ k := by
        by_contra before
        exact stops.2 (first.mono (by omega))
      obtain ⟨j, rfl⟩ := Nat.exists_eq_add_of_le beyond
      rw [h.run_of_stopsAfter nonneg stops bound,
        later.run_of_stopsAfter nonneg stops.of_add (by omega), ← steps_add]
      rfl
  · obtain ⟨k, bound, stops⟩ := exists_stopsAfter pivots
    have ended := h.ended_of_stopsAfter nonneg stops
    rw [h.run_of_stopsAfter nonneg stops bound,
      h.run_of_stopsAfter nonneg stops (bound.trans (Nat.le_add_right a b)), ended.run_eq]

end Framed

/-- The report of a session that was framed. -/
def report? (s : Session α) : Option (Report α) :=
  s.standardForm?.map fun form => ⟨form, s.tableaux, s.termination, s.solution?⟩

end Session

/-! ### Solving -/

namespace Solver

variable {p : Problem α} {tolerance : α} {s : Session α} {cap k : Nat}

/-- The tableaux that a solve made, whether it finished or not. -/
def tableaux (solver : Solver α) (p : Problem α) : List (Tableau α) :=
  match solver.solve p with
  | .ok report => report.tableaux
  | .error e => e.tableaux

variable {first : Tableau α} (started : (Session.ofProblem p tolerance).frame = (s, .ok first))
include started

theorem length_of_started : s.tableaux.length = 1 := by
  obtain ⟨history, begun, rfl⟩ := Session.frame_ok started
  simp [Session.tableaux, Session.history?, History.tableaux, (Session.firstHistory_ok begun).2.2]

variable [UnitLaws α] (nonneg : ¬ tolerance < 0)
include nonneg

theorem framed_of_started : s.Framed p tolerance := by
  have sound := (Session.Sound.kept nonneg).frame (Session.Sound.ofProblem (p := p))
  rw [started] at sound
  obtain ⟨history, _, rfl⟩ := Session.frame_ok started
  exact ⟨sound, rfl⟩

/-- With one pivot more to come than the limit allows, a solve stops at the limit. -/
theorem solve_of_pivots (pivots : s.Pivots (cap + 1)) : Solver.solve ⟨cap, tolerance⟩ p =
    .error (.iterationLimit cap (s.steps cap).tableaux) := by
  simp only [solve, session, started,
    (framed_of_started started nonneg).run_of_pivots nonneg pivots]

/-- A solve whose limit allows the last pivot reports the session that its steps end. -/
theorem solve_of_stopsAfter (stops : s.StopsAfter k) (le : k ≤ cap) :
    ∃ report, (s.steps (k + 1)).report? = some report ∧
      Solver.solve ⟨cap, tolerance⟩ p = .ok report := by
  have framed := framed_of_started started nonneg
  have ended := framed.ended_of_stopsAfter nonneg stops
  obtain ⟨history, known⟩ := Option.isSome_iff_exists.mp (framed.steps nonneg (k + 1)).framed
  have form : (s.steps (k + 1)).standardForm? = some history.form := by
    simp [Session.standardForm?, known]
  refine ⟨_, by rw [Session.report?, form]; rfl, ?_⟩
  simp only [solve, session, started, framed.run_of_stopsAfter nonneg stops le]
  rcases ended with stopped | stopped <;> simp only [stopped, form]

/-- With a limit no smaller, a solve makes the tableaux of no fewer steps. -/
theorem exists_tableaux_eq {limit : Nat} (pivots : s.Pivots (limit + 1)) (le : limit ≤ cap) :
    ∃ more, tableaux ⟨cap, tolerance⟩ p = (s.steps (limit + more)).tableaux := by
  by_cases further : s.Pivots (cap + 1)
  · refine ⟨cap - limit, ?_⟩
    rw [tableaux, solve_of_pivots started nonneg further, show limit + (cap - limit) = cap by omega]
    rfl
  · obtain ⟨k, bound, stops⟩ := Session.exists_stopsAfter further
    obtain ⟨report, made, solved⟩ := solve_of_stopsAfter started nonneg stops bound
    have beyond : limit ≤ k := by
      by_contra before
      exact stops.2 (pivots.mono (by omega))
    refine ⟨k + 1 - limit, ?_⟩
    rw [tableaux, solved, show limit + (k + 1 - limit) = k + 1 by omega]
    obtain ⟨form, _, rfl⟩ := Option.map_eq_some_iff.mp made
    rfl

/-- Past a limit at which a solve stops, greater limits only add to its tableaux. -/
theorem tableaux_of_pivots {limit : Nat} (pivots : s.Pivots (limit + 1)) (le : limit ≤ cap) :
    (s.steps limit).tableaux.length = limit + 1 ∧
      (s.steps limit).tableaux.take limit = (tableaux ⟨cap, tolerance⟩ p).take limit := by
  have length : (s.steps limit).tableaux.length = limit + 1 := by
    rw [Session.length_steps (pivots.mono (Nat.le_succ limit)), length_of_started started,
      Nat.add_comm]
  obtain ⟨more, all⟩ := exists_tableaux_eq started nonneg pivots le
  refine ⟨length, ?_⟩
  rw [all, Session.steps_add]
  exact (Session.keeps_steps _ more).take length

end Solver

namespace Session

/-- A run with a limit is as many steps: it takes one more than there are pivots to come if the
    limit allows for them, and else it pauses at the limit, on a tableau that is not evaluated. -/
structure RunsAsSteps (s : Session α) (n : Nat) : Prop where
  stops : ∀ k : Nat, s.pivotCount = k → k ≤ n →
    s.run n = (s.steps (k + 1), .ok (s.steps (k + 1)).termination) ∧ (s.steps (k + 1)).Ended
  pauses : (n : ℕ∞) < s.pivotCount →
    s.run n = (s.steps n, .ok .notTerminated) ∧ ∃ last, (s.steps n).tableaux.getLast? = some last ∧
      last.isEvaluated = false ∧ last.bare = last

theorem Framed.runsAsSteps [UnitLaws α] {p : Problem α} {tolerance : α} {s : Session α}
    (h : s.Framed p tolerance) (nonneg : ¬ tolerance < 0) (n : Nat) : s.RunsAsSteps n where
  stops k count le := by
    have stops := pivotCount_eq_iff.mp count
    exact ⟨h.run_of_stopsAfter nonneg stops le, h.ended_of_stopsAfter nonneg stops⟩
  pauses more := by
    have pivots := lt_pivotCount_iff.mp more
    have last := (pivots_add.mp pivots).2
    exact ⟨h.run_of_pivots nonneg pivots, (h.steps nonneg n).not_evaluated last⟩

end Session

/-- A limit on pivots changes nothing but where a run pauses. A run is as many steps, in pieces or
    not; a solve that finishes does so alike with every greater limit; and one that stops at its
    limit has one tableau more than that, all but the last of which every greater limit gives. -/
theorem run_eq_steps (p : Problem Float) {tolerance : Float} (nonneg : ¬ tolerance < 0) :
    (∀ calls s, (Session.ofProblem p tolerance).after calls = s → s.standardForm?.isSome = true →
      (∀ n, s.RunsAsSteps n) ∧ ∀ a b, (s.run a).1.run b = s.run (a + b)) ∧
    ∀ n m, n ≤ m →
      (∀ report, Solver.solve ⟨n, tolerance⟩ p = .ok report →
        Solver.solve ⟨m, tolerance⟩ p = .ok report) ∧
      ∀ limit tableaux, Solver.solve ⟨n, tolerance⟩ p = .error (.iterationLimit limit tableaux) →
        limit = n ∧ tableaux.length = n + 1 ∧
          tableaux.take n = (Solver.tableaux ⟨m, tolerance⟩ p).take n := by
  constructor
  · rintro calls s rfl known
    have sound := (Session.Sound.kept nonneg).after (Session.Sound.ofProblem (p := p)) calls
    rw [Session.standardForm?, Option.isSome_map] at known
    have framed : ((Session.ofProblem p tolerance).after calls).Framed p tolerance := ⟨sound, known⟩
    exact ⟨framed.runsAsSteps nonneg, framed.run_run nonneg⟩
  · intro n m le
    cases started : (Session.ofProblem p tolerance).frame with
    | mk s result =>
      cases result with
      | error e => simp [Solver.solve, Solver.session, started]
      | ok first =>
        by_cases pivots : s.Pivots (n + 1)
        · rw [Solver.solve_of_pivots started nonneg pivots]
          refine ⟨by simp, ?_⟩
          rintro limit tableaux ⟨⟩
          exact ⟨rfl, Solver.tableaux_of_pivots started nonneg pivots le⟩
        · obtain ⟨k, bound, stops⟩ := Session.exists_stopsAfter pivots
          obtain ⟨report, made, solved⟩ := Solver.solve_of_stopsAfter started nonneg stops bound
          obtain ⟨_, again, later⟩ :=
            Solver.solve_of_stopsAfter started nonneg stops (bound.trans le)
          obtain rfl := Option.some.inj (made.symm.trans again)
          rw [solved, later]
          exact ⟨fun _ same => same, by simp⟩

/-- Two pivots: a limit of one pauses before the second, a limit of two stops. -/
theorem wedge_runs_as_steps : ¬ (1e-9 : Float) < 0 ∧
    ∃ s, (Session.ofProblem wedge 1e-9).after [.frame] = s ∧ s.standardForm?.isSome = true ∧
      s.pivotCount = (2 : Nat) ∧ s.run 1 = (s.steps 1, .ok .notTerminated) ∧
      s.run 2 = (s.steps 3, .ok (s.steps 3).termination) ∧ (s.run 1).1.run 1 = s.run 2 ∧
      ∀ m, 2 ≤ m → ∀ report, Solver.solve ⟨2, 1e-9⟩ wedge = .ok report →
        Solver.solve ⟨m, 1e-9⟩ wedge = .ok report := by
  have nonneg : ¬ (1e-9 : Float) < 0 := by decide +kernel
  obtain ⟨sessions, solves⟩ := run_eq_steps wedge nonneg
  have known : ((Session.ofProblem wedge 1e-9).after [.frame]).standardForm?.isSome = true := by
    decide +kernel
  have pivots : ((Session.ofProblem wedge 1e-9).after [.frame]).StopsAfter 2 := by
    decide +kernel
  have count := Session.pivotCount_eq_iff.mpr pivots
  obtain ⟨runs, joined⟩ := sessions [.frame] _ rfl known
  refine ⟨nonneg, _, rfl, known, count, ?_, ((runs 2).stops 2 count le_rfl).1, joined 1 1, ?_⟩
  · refine ((runs 1).pauses ?_).1
    rw [count]
    decide
  · exact fun m le => (solves 2 m le).1

end Simplex
