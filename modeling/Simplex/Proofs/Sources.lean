import Simplex.Command.Source
import Simplex.Proofs.Checks

/-!
What a source gives. Its options win over its problem file value by value, except that the
constraints all come from one of them. There is no input just if the file cannot be read or is
refused, neither has an objective, or the tolerance that counts is not finite or negative. This
holds for every reader of documents.
-/
namespace Simplex

/-! ### Merging options and a file -/

theorem checkTolerance_eq_ok_iff {x y : Float} :
    checkTolerance x = .ok y ↔ y = x ∧ x.isFinite = true ∧ ¬ x < 0 := by
  unfold checkTolerance
  split
  · rename_i bad
    simp only [Bool.or_eq_true, Bool.not_eq_true', decide_eq_true_eq] at bad
    constructor
    · nofun
    · rintro ⟨_, finite, nonneg⟩
      rcases bad with infinite | negative
      · rw [finite] at infinite
        cases infinite
      · exact absurd negative nonneg
  · rename_i good
    simp only [Bool.or_eq_true, Bool.not_eq_true', decide_eq_true_eq, not_or,
      Bool.not_eq_false] at good
    rw [Except.ok.injEq]
    exact ⟨fun same => ⟨same.symm, good⟩, fun checked => checked.1.symm⟩

theorem checkTolerance_error_iff {x : Float} :
    (∃ e, checkTolerance x = .error e) ↔ x.isFinite = false ∨ x < 0 := by
  unfold checkTolerance
  split
  · rename_i bad
    simpa using bad
  · rename_i good
    simpa using good

/-- The tolerance that counts where none is given passes the check. -/
theorem checkTolerance_standard : checkTolerance 1e-9 = .ok 1e-9 :=
  checkTolerance_eq_ok_iff.mpr ⟨rfl, by decide +kernel⟩

namespace Options

/-- The input has what the options give, and what they do not give it has from the file: its
    objective, without which there is none, its constraints, all from one place, its direction, the
    limit of pivots and the tolerance. A limit that neither gives is ten thousand and a tolerance
    `10^-9`. The tolerance is finite and not negative. -/
structure Merges (options : Options) (file : ProblemFile) (input : Input) : Prop where
  objective : options.objective.or file.objective = some input.draft.objective
  ownConstraints : options.constraints ≠ [] → input.draft.constraints = options.constraints
  fileConstraints : options.constraints = [] → input.draft.constraints = file.constraints
  direction : options.direction.or file.direction = input.draft.direction
  maxIterations :
    (options.maxIterations.or file.solver.maxIterations).getD 10000 = input.solver.maxIterations
  tolerance : (options.tolerance.or file.solver.tolerance).getD 1e-9 = input.solver.tolerance
  finite : input.solver.tolerance.isFinite = true
  nonneg : ¬ input.solver.tolerance < 0

variable {options : Options} {file : ProblemFile} {input : Input}

/-- Merging looks for an objective and then checks the tolerance that counts. -/
theorem merge_eq (options : Options) (file : ProblemFile) : options.merge file =
    match options.objective.or file.objective with
    | none => .error .missingObjective
    | some objective =>
      (checkTolerance ((options.tolerance.or file.solver.tolerance).getD 1e-9)).map fun tolerance =>
        { draft := {
            objective := objective
            constraints :=
              if options.constraints.isEmpty then file.constraints else options.constraints
            direction := options.direction.or file.direction }
          solver :=
            ⟨(options.maxIterations.or file.solver.maxIterations).getD 10000, tolerance⟩ } := by
  unfold merge
  cases options.objective.or file.objective with
  | none => rfl
  | some objective =>
    cases options.tolerance.or file.solver.tolerance with
    | none =>
      rw [Option.getD_none, checkTolerance_standard]
      rfl
    | some x =>
      dsimp only
      rw [Option.getD_some]
      cases checkTolerance x <;> rfl

theorem merge_eq_ok_iff : options.merge file = .ok input ↔ options.Merges file input := by
  rw [merge_eq]
  cases objective : options.objective.or file.objective with
  | none =>
    constructor
    · nofun
    · intro merges
      rw [merges.objective] at objective
      cases objective
  | some text =>
    simp only [map_eq_ok_iff, checkTolerance_eq_ok_iff]
    constructor
    · rintro ⟨_, ⟨rfl, finite, nonneg⟩, rfl⟩
      refine ⟨objective, fun given => ?_, fun none => ?_, rfl, rfl, rfl, finite, nonneg⟩
      · exact if_neg (List.isEmpty_iff.not.mpr given)
      · exact if_pos (List.isEmpty_iff.mpr none)
    · rintro ⟨own, given, none, direction, limit, tolerance, finite, nonneg⟩
      refine ⟨_, ⟨rfl, tolerance ▸ finite, tolerance ▸ nonneg⟩, ?_⟩
      have constraints : (if options.constraints.isEmpty then file.constraints
          else options.constraints) = input.draft.constraints := by
        by_cases empty : options.constraints = []
        · rw [if_pos (List.isEmpty_iff.mpr empty), none empty]
        · rw [if_neg (List.isEmpty_iff.not.mpr empty), given empty]
      rw [objective, Option.some_inj] at own
      rw [constraints, own, direction, limit, tolerance]

/-- Options and a file give no input just if neither has an objective, or the tolerance that counts
    is not finite or negative. -/
theorem merge_error_iff : (∃ e, options.merge file = .error e) ↔
    options.objective.or file.objective = none ∨
      ∃ x, options.tolerance.or file.solver.tolerance = some x ∧ (x.isFinite = false ∨ x < 0) := by
  rw [merge_eq]
  cases options.objective.or file.objective with
  | none => simp
  | some text =>
    simp only [map_eq_error_iff]
    cases options.tolerance.or file.solver.tolerance with
    | none => simp [checkTolerance_standard]
    | some x => simpa using checkTolerance_error_iff

end Options

namespace Command.Source

/-! ### Sources -/

/-- The problem file of a source: the one at its path, or one that says nothing. -/
inductive Reads (source : Source) (documents : Documents) (files : Files) : ProblemFile → Prop
  | nothing (unnamed : source.file = none) : Reads source documents files .empty
  | text {path text : String} {file : ProblemFile} (named : source.file = some path)
      (found : files path = .ok text) (read : documents text = .ok file) :
      Reads source documents files file

/-- The input of a source is invalid: its file cannot be read or is refused, there is no objective,
    or the tolerance is not finite or negative. -/
inductive Invalid (source : Source) (documents : Documents) (files : Files) : Prop
  | unreadable {path reason : String} (named : source.file = some path)
      (failed : files path = .error reason)
  | refused {path text reason : String} (named : source.file = some path)
      (found : files path = .ok text) (failed : documents text = .error reason)
  | noObjective {file : ProblemFile} (reads : source.Reads documents files file)
      (missing : source.options.objective.or file.objective = none)
  | tolerance {file : ProblemFile} {x : Float} (reads : source.Reads documents files file)
      (counts : source.options.tolerance.or file.solver.tolerance = some x)
      (bad : x.isFinite = false ∨ x < 0)

/-- The input that a source gives: its options merged with its problem file. -/
def Gives (source : Source) (documents : Documents) (files : Files) (input : Input) : Prop :=
  ∃ file, source.Reads documents files file ∧ source.options.Merges file input

variable {source : Source} {documents : Documents} {files : Files} {file : ProblemFile}
  {input : Input}

theorem Gives.tolerance (gives : source.Gives documents files input) :
    input.solver.tolerance.isFinite = true ∧ ¬ input.solver.tolerance < 0 := by
  obtain ⟨_, _, merges⟩ := gives
  exact ⟨merges.finite, merges.nonneg⟩

theorem input_of_reads (reads : source.Reads documents files file) :
    source.input documents files = source.options.merge file := by
  cases reads with
  | nothing unnamed => simp [Source.input, unnamed, bind, Except.bind, pure, Except.pure]
  | text named found read =>
    simp [Source.input, named, readFile, found, read, bind, Except.bind, Except.mapError]

/-- A source reads a file, unless that one cannot be read or is refused. -/
theorem exists_reads_or_invalid (source : Source) (documents : Documents) (files : Files) :
    (∃ file, source.Reads documents files file) ∨ source.Invalid documents files := by
  cases named : source.file with
  | none => exact .inl ⟨_, .nothing named⟩
  | some path =>
    cases found : files path with
    | error reason => exact .inr (.unreadable named found)
    | ok text =>
      cases read : documents text with
      | error reason => exact .inr (.refused named found read)
      | ok file => exact .inl ⟨file, .text named found read⟩

/-- A source gives no input just if it is invalid. -/
theorem input_error_iff :
    (∃ e, source.input documents files = .error e) ↔ source.Invalid documents files := by
  constructor
  · rintro ⟨e, failed⟩
    rcases source.exists_reads_or_invalid documents files with ⟨file, reads⟩ | invalid
    · rw [input_of_reads reads] at failed
      rcases Options.merge_error_iff.mp ⟨e, failed⟩ with missing | ⟨x, counts, bad⟩
      · exact .noObjective reads missing
      · exact .tolerance reads counts bad
    · exact invalid
  · intro invalid
    cases invalid with
    | @unreadable path reason named failed =>
      refine ⟨.unreadable path reason, ?_⟩
      simp [Source.input, named, readFile, failed, bind, Except.bind]
    | @refused path text reason named found failed =>
      refine ⟨.invalidFile path reason, ?_⟩
      simp [Source.input, named, readFile, found, failed, bind, Except.bind, Except.mapError]
    | noObjective reads missing =>
      rw [input_of_reads reads]
      exact Options.merge_error_iff.mpr (.inl missing)
    | tolerance reads counts bad =>
      rw [input_of_reads reads]
      exact Options.merge_error_iff.mpr (.inr ⟨_, counts, bad⟩)

/-- What a source gives is what its options and its problem file merge to. -/
theorem input_eq_ok_iff :
    source.input documents files = .ok input ↔ source.Gives documents files input := by
  constructor
  · intro merged
    rcases source.exists_reads_or_invalid documents files with ⟨file, reads⟩ | invalid
    · rw [input_of_reads reads] at merged
      exact ⟨file, reads, Options.merge_eq_ok_iff.mp merged⟩
    · obtain ⟨e, failed⟩ := input_error_iff.mpr invalid
      rw [merged] at failed
      cases failed
  · rintro ⟨file, reads, merges⟩
    rw [input_of_reads reads]
    exact Options.merge_eq_ok_iff.mpr merges

/-- Loading stops at the first part that fails: the input, or the problem that its texts state. -/
theorem load_eq (source : Source) (documents : Documents) (files : Files) :
    source.load documents files =
      match source.input documents files with
      | .error e => .error (.input e)
      | .ok input =>
        match input.draft.build with
        | .error e => .error (.draft e)
        | .ok p => .ok (p, input.solver) := by
  unfold load
  cases source.input documents files with
  | error e => rfl
  | ok input =>
    cases built : input.draft.build <;>
      simp [built, bind, Except.bind, Except.mapError, pure, Except.pure]

/-- What is loaded is the problem that the texts of a given input state, and how to solve it. -/
theorem load_eq_ok_iff {p : Problem Float} {solver : Solver Float} :
    source.load documents files = .ok (p, solver) ↔ ∃ input,
      source.Gives documents files input ∧ input.draft.build = .ok p ∧ input.solver = solver := by
  simp only [load, bind_eq_ok_iff, mapError_eq_ok_iff, input_eq_ok_iff, pure, Except.pure,
    Except.ok.injEq, Prod.mk.injEq]
  constructor
  · rintro ⟨input, gives, _, built, rfl, same⟩
    exact ⟨input, gives, built, same⟩
  · rintro ⟨input, gives, built, same⟩
    exact ⟨input, gives, p, built, rfl, same⟩

end Command.Source

end Simplex
