import Simplex.Command.Outcome
import Simplex.Proofs.Sources
import Simplex.Proofs.Stepping

/-!
The exit status. A source gives no problem if its input is invalid or its texts state none, a
problem may have no first tableau, and what is framed is pivoted until it ends or has used up its
pivots. The status tells which of these it was, and no calculation fails on the way, since a
tolerance that was accepted is not negative. This holds for every reader of arguments and documents
and for every writer of JSON that refuses nothing.
-/
namespace Simplex

/-! ### Writing bodies -/

namespace Command

/-- Every body has a text. A writer of JSON refuses only values that refuse to be written and maps
    whose keys are no texts; bodies hold numbers, texts, lists and maps with names as keys. -/
structure Libraries.WritesBodies (lib : Libraries) : Prop where
  report : ∀ body, ∃ text, lib.writeReport body = .ok text
  failure : ∀ body, ∃ text, lib.writeFailure body = .ok text

namespace Libraries.WritesBodies

variable {lib : Libraries}

/-- A solve that finished exits as its report says, in every format. -/
theorem exit_ofReport (writes : lib.WritesBodies) (p : Problem Float) (r : Report Float)
    (format : Format) (withTableaux : Bool) :
    (Outcome.ofReport lib p r format withTableaux).exit = .ofReport r := by
  cases format with
  | plain => rfl
  | json =>
    obtain ⟨text, written⟩ := writes.report (.ofReport p r)
    rw [Outcome.ofReport, written]

/-- A solve that did not finish exits as its error says, in every format. -/
theorem exit_ofFailure (writes : lib.WritesBodies) (e : SolveError Float) (format : Format)
    (withTableaux : Bool) :
    (Outcome.ofFailure lib e format withTableaux).exit = .ofFailure e := by
  cases format with
  | plain => rfl
  | json =>
    obtain ⟨text, written⟩ := writes.failure (.ofError e)
    rw [Outcome.ofFailure, written]

end Libraries.WritesBodies

end Command

/-! ### The status of a solve -/

theorem Session.firstHistory_error_iff {α : Type} [Scalar α] {p : Problem α} {e : FramingError} :
    firstHistory p = .error e ↔ StandardForm.ofProblem p = .error e ∨
      ∃ form, StandardForm.ofProblem p = .ok form ∧ Tableau.initial form = .error e := by
  unfold firstHistory
  cases form : StandardForm.ofProblem p with
  | error other => simp [bind, Except.bind]
  | ok f => cases first : Tableau.initial f <;> simp [first, bind, Except.bind, pure, Except.pure]

namespace Solver
open Command (Exit Outcome Format Libraries)

/-- Why a solve exits with a status: the problem has no standard form, or that no first tableau;
    there are more pivots to come than the limit allows; or the limit allows them all, and the step
    behind them ends the session. -/
inductive ExitsWith (solver : Solver Float) (p : Problem Float) : Nat → Prop
  | noForm {e : FramingError} (failed : StandardForm.ofProblem p = .error e) : ExitsWith solver p 3
  | noTableau {form : StandardForm Float} {e : FramingError}
      (known : StandardForm.ofProblem p = .ok form) (failed : Tableau.initial form = .error e) :
      ExitsWith solver p 3
  | exhausted {s : Session Float} {first : Tableau Float}
      (framed : (solver.session p).frame = (s, .ok first))
      (more : (solver.maxIterations : ℕ∞) < s.pivotCount) : ExitsWith solver p 4
  | unbounded {s : Session Float} {first : Tableau Float} {k : Nat}
      (framed : (solver.session p).frame = (s, .ok first)) (count : s.pivotCount = k)
      (allowed : k ≤ solver.maxIterations)
      (ends : (s.steps (k + 1)).termination = .unbounded) : ExitsWith solver p 1
  | optimal {s : Session Float} {first : Tableau Float} {k : Nat}
      (framed : (solver.session p).frame = (s, .ok first)) (count : s.pivotCount = k)
      (allowed : k ≤ solver.maxIterations)
      (ends : (s.steps (k + 1)).termination = .optimal) : ExitsWith solver p 0

variable {solver : Solver Float} {p : Problem Float} {status : Nat}

theorem solve_of_firstHistory_error {e : FramingError}
    (failed : Session.firstHistory p = .error e) : solver.solve p = .error (.framing e) := by
  simp [solve, session, Session.frame, Session.ofProblem, failed]

/-- A solve whose steps end within the limit reports how they end. -/
theorem solve_of_pivotCount (nonneg : ¬ solver.tolerance < 0) {s : Session Float}
    {first : Tableau Float} {k : Nat} (framed : (solver.session p).frame = (s, .ok first))
    (count : s.pivotCount = k) (allowed : k ≤ solver.maxIterations) :
    ∃ report, solver.solve p = .ok report ∧
      report.termination = (s.steps (k + 1)).termination := by
  obtain ⟨report, made, solved⟩ :=
    solve_of_stopsAfter framed nonneg (Session.pivotCount_eq_iff.mp count) allowed
  obtain ⟨form, _, rfl⟩ := Option.map_eq_some_iff.mp made
  exact ⟨_, solved, rfl⟩

/-- The status of a solve, whatever the format, is the one that there is a reason for. -/
theorem ExitsWith.code_ofSolve {lib : Libraries} (writes : lib.WritesBodies)
    (h : solver.ExitsWith p status) (nonneg : ¬ solver.tolerance < 0) (format : Format)
    (withTableaux : Bool) :
    (Outcome.ofSolve lib p solver format withTableaux).exit.code = status := by
  have failure : ∀ e, solver.solve p = .error e →
      (Outcome.ofSolve lib p solver format withTableaux).exit = .ofFailure e := by
    intro e failed
    rw [Outcome.ofSolve, failed]
    exact writes.exit_ofFailure e format withTableaux
  have finish : ∀ r, solver.solve p = .ok r →
      (Outcome.ofSolve lib p solver format withTableaux).exit = .ofReport r := by
    intro r solved
    rw [Outcome.ofSolve, solved]
    exact writes.exit_ofReport p r format withTableaux
  cases h with
  | noForm failed =>
    rw [failure _ (solve_of_firstHistory_error (Session.firstHistory_error_iff.mpr (.inl failed)))]
    rfl
  | noTableau known failed =>
    have unframed := Session.firstHistory_error_iff.mpr (.inr ⟨_, known, failed⟩)
    rw [failure _ (solve_of_firstHistory_error unframed)]
    rfl
  | exhausted framed more =>
    rw [failure _ (solve_of_pivots framed nonneg (Session.lt_pivotCount_iff.mp more))]
    rfl
  | unbounded framed count allowed ends | optimal framed count allowed ends =>
    obtain ⟨r, solved, termination⟩ := solve_of_pivotCount nonneg framed count allowed
    rw [finish r solved, Exit.ofReport, Report.isOptimal, termination, ends]
    rfl

/-- There is a reason for some status: what is framed either pivots beyond the limit or ends. -/
theorem exists_exitsWith (nonneg : ¬ solver.tolerance < 0) (p : Problem Float) :
    ∃ status, solver.ExitsWith p status := by
  cases begun : Session.firstHistory p with
  | error e =>
    rcases Session.firstHistory_error_iff.mp begun with failed | ⟨form, known, failed⟩
    · exact ⟨3, .noForm failed⟩
    · exact ⟨3, .noTableau known failed⟩
  | ok h =>
    have framed : (solver.session p).frame =
        ({ solver.session p with phase := .iterating h }, .ok h.latest) := by
      simp [session, Session.frame, Session.ofProblem, begun]
    -- The reasons that are left name the framed session only.
    generalize ({ solver.session p with phase := .iterating h } : Session Float) = s at framed
    by_cases pivots : s.Pivots (solver.maxIterations + 1)
    · exact ⟨4, .exhausted framed (Session.lt_pivotCount_iff.mpr pivots)⟩
    · obtain ⟨k, allowed, stops⟩ := Session.exists_stopsAfter pivots
      have count := Session.pivotCount_eq_iff.mpr stops
      rcases (framed_of_started framed nonneg).ended_of_stopsAfter nonneg stops with ends | ends
      · exact ⟨0, .optimal framed count allowed ends⟩
      · exact ⟨1, .unbounded framed count allowed ends⟩

/-- A check only frames: its status is that of a solve if this one is not framed, and else zero. -/
theorem ExitsWith.code_ofCheck (h : solver.ExitsWith p status) :
    (Outcome.ofCheck p).exit.code = if status = 2 ∨ status = 3 then status else 0 := by
  have failure : ∀ e, Session.firstHistory p = .error e → (Outcome.ofCheck p).exit.code = 3 := by
    intro e failed
    simp only [Outcome.ofCheck, failed]
    rfl
  have valid : ∀ s first, (solver.session p).frame = (s, .ok first) →
      (Outcome.ofCheck p).exit.code = 0 := by
    intro s first framed
    obtain ⟨begun, known, _⟩ := Session.frame_ok framed
    change Session.firstHistory p = _ at known
    simp only [Outcome.ofCheck, known]
    rfl
  cases h with
  | noForm failed => exact failure _ (Session.firstHistory_error_iff.mpr (.inl failed))
  | noTableau known failed =>
    exact failure _ (Session.firstHistory_error_iff.mpr (.inr ⟨_, known, failed⟩))
  | exhausted framed | unbounded framed | optimal framed => exact valid _ _ framed

end Solver

/-! ### The status of the program -/

namespace Command

/-- Why a solve of what a source gives exits with a status: its input is invalid, its texts state
    no problem, or the problem that they state is solved with that status. -/
inductive Source.ExitsWith (source : Source) (documents : Documents) (files : Files) : Nat → Prop
  | invalid (invalid : source.Invalid documents files) : ExitsWith source documents files 2
  | unstated {input : Input} {e : DraftError} (gives : source.Gives documents files input)
      (failed : input.draft.build = .error e) : ExitsWith source documents files 2
  | solved {input : Input} {p : Problem Float} {status : Nat}
      (gives : source.Gives documents files input) (built : input.draft.build = .ok p)
      (solved : input.solver.ExitsWith p status) : ExitsWith source documents files status

namespace Source

variable {lib : Libraries} {source : Source} {files : Files} {status : Nat}

/-- The statuses of a solve and of a check of one source, told by the reason for the former. -/
theorem ExitsWith.codes (writes : lib.WritesBodies)
    (h : source.ExitsWith lib.documents files status) :
    (∀ format withTableaux,
      ((Request.solve source format withTableaux).perform lib files).exit.code = status) ∧
    ((Request.check source).perform lib files).exit.code =
      if status = 2 ∨ status = 3 then status else 0 := by
  cases h with
  | invalid invalid =>
    obtain ⟨e, failed⟩ := input_error_iff.mpr invalid
    simp only [Request.perform, load_eq, failed]
    exact ⟨fun _ _ => rfl, rfl⟩
  | unstated gives failed =>
    simp only [Request.perform, load_eq, input_eq_ok_iff.mpr gives, failed]
    exact ⟨fun _ _ => rfl, rfl⟩
  | solved gives built solved =>
    simp only [Request.perform, load_eq, input_eq_ok_iff.mpr gives, built]
    exact ⟨fun format => solved.code_ofSolve writes gives.tolerance.2 (.ofName format),
      solved.code_ofCheck⟩

/-- There is a reason for some status. -/
theorem exists_exitsWith (source : Source) (documents : Documents) (files : Files) :
    ∃ status, source.ExitsWith documents files status := by
  cases merged : source.input documents files with
  | error e => exact ⟨2, .invalid (input_error_iff.mp ⟨e, merged⟩)⟩
  | ok input =>
    have gives := input_eq_ok_iff.mp merged
    cases built : input.draft.build with
    | error e => exact ⟨2, .unstated gives built⟩
    | ok p =>
      obtain ⟨status, solved⟩ := Solver.exists_exitsWith gives.tolerance.2 p
      exact ⟨status, .solved gives built solved⟩

end Source

/-- The exit status tells the outcome, whatever reads arguments and documents. A solve that was
    accepted exits with a status just if there is a reason for it. No calculation fails on the way,
    since a tolerance that is loaded is finite and not negative. Neither the format nor the tableaux
    count: every solve of the same source exits alike, and every check of it exits with two or three
    just if the solve does, and else with zero. -/
theorem status_tells_outcome {lib : Libraries} (writes : lib.WritesBodies) (files : Files)
    {arguments : List String} {source : Source} {format : String} {withTableaux : Bool}
    (accepted : lib.parse arguments = .ok (.solve source format withTableaux)) :
    (∀ status, (lib.run files arguments).exit.code = status ↔
      source.ExitsWith lib.documents files status) ∧
    (∀ p solver, source.load lib.documents files = .ok (p, solver) →
      solver.tolerance.isFinite = true ∧ ¬ solver.tolerance < 0 ∧
      ∀ e tableaux, solver.solve p ≠ .error (.calculation e tableaux)) ∧
    (∀ others format withTableaux,
      lib.parse others = .ok (.solve source format withTableaux) →
      (lib.run files others).exit.code = (lib.run files arguments).exit.code) ∧
    ∀ others, lib.parse others = .ok (.check source) →
      (lib.run files others).exit.code =
        if (lib.run files arguments).exit.code = 2 ∨ (lib.run files arguments).exit.code = 3 then
          (lib.run files arguments).exit.code
        else 0 := by
  have performed : ∀ {words : List String} {request : Request},
      lib.parse words = .ok request → lib.run files words = request.perform lib files := by
    intro words request known
    rw [Libraries.run, known]
  obtain ⟨status, reason⟩ := source.exists_exitsWith lib.documents files
  obtain ⟨solves, checks⟩ := reason.codes writes
  have code : (lib.run files arguments).exit.code = status := by
    rw [performed accepted]
    exact solves format withTableaux
  refine ⟨?_, ?_, ?_, ?_⟩
  · intro other
    rw [code]
    constructor
    · rintro rfl
      exact reason
    · intro reason
      rw [← solves format withTableaux]
      exact (reason.codes writes).1 format withTableaux
  · intro p solver loaded
    obtain ⟨input, gives, _, rfl⟩ := Source.load_eq_ok_iff.mp loaded
    obtain ⟨finite, nonneg⟩ := gives.tolerance
    exact ⟨finite, nonneg, Solver.solve_ne_calculation nonneg input.solver.maxIterations⟩
  · intro others format withTableaux acceptedOther
    rw [code, performed acceptedOther]
    exact solves format withTableaux
  · intro others acceptedOther
    rw [code, performed acceptedOther]
    exact checks

/-! ### The readers and writers at hand -/

/-- Every body is written. -/
theorem libraries_writesBodies : libraries.WritesBodies := ⟨fun _ => ⟨_, rfl⟩, fun _ => ⟨_, rfl⟩⟩

/-- Maximize `x` up to one. -/
def ceiling : ProblemFile where
  direction := some "max"
  objective := some "x"
  constraints := ["x <= 1"]
  solver := ⟨some 500, some 1e-6⟩

/-- The same as a document. -/
def ceilingText : String :=
  "direction = \"max\"\nobjective = \"x\"\nconstraints = [\"x <= 1\"]\n\n" ++
    "[solver]\nmax_iterations = 500\ntolerance = 1e-6\n"

/-- The only file there is. -/
def ceilingFiles : Files := fun path =>
  if path = "ceiling.toml" then .ok ceilingText else .error "No such file or directory"

/-- The ceiling is raised to two, and no pivot is allowed. -/
def raised : Source where
  file := some "ceiling.toml"
  options := ⟨none, ["x <= 2"], none, some 0, none⟩

/-- Solves that source. -/
def cutShort : List String :=
  ["solve", "ceiling.toml", "--constraint", "x <= 2", "--max-iterations", "0"]

/-- The options win over the file, and what they do not give is the file's. The limit of pivots is
    reached, in every format, and a check of the same source finds nothing wrong. -/
theorem cutShort_exits :
    libraries.parse cutShort = .ok (.solve raised "pretty" false) ∧
    raised.Gives libraries.documents ceilingFiles
      ⟨⟨"x", ["x <= 2"], some "max"⟩, ⟨0, 1e-6⟩⟩ ∧
    raised.ExitsWith libraries.documents ceilingFiles 4 ∧
    (run ceilingFiles (cutShort ++ ["--format=json", "--tableaux"])).exit.code = 4 ∧
    (run ceilingFiles ["check", "--max-iterations=0", "ceiling.toml", "-c", "x <= 2"]).exit.code
      = 0 := by
  have accepted : libraries.parse cutShort = .ok (.solve raised "pretty" false) := rfl
  have reads : raised.Reads libraries.documents ceilingFiles ceiling :=
    .text rfl rfl (by decide +kernel)
  have merges : raised.options.Merges ceiling ⟨⟨"x", ["x <= 2"], some "max"⟩, ⟨0, 1e-6⟩⟩ :=
    ⟨rfl, fun _ => rfl, nofun, rfl, rfl, rfl, by decide +kernel, by decide +kernel⟩
  have code : (libraries.run ceilingFiles cutShort).exit.code = 4 := by decide +kernel
  obtain ⟨reasons, _, solves, checks⟩ :=
    status_tells_outcome libraries_writesBodies ceilingFiles accepted
  refine ⟨accepted, ⟨ceiling, reads, merges⟩, (reasons 4).mp code, ?_, ?_⟩
  · exact (solves (cutShort ++ ["--format=json", "--tableaux"]) "json" true rfl).trans code
  · have checked := checks ["check", "--max-iterations=0", "ceiling.toml", "-c", "x <= 2"] rfl
    rwa [code] at checked

end Command

end Simplex
