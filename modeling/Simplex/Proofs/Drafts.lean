import Simplex.Proofs.Diagnosis
import Simplex.Proofs.Merging
import Simplex.Proofs.WrittenTerms

/-!
Problems from texts. Calls put the texts of a draft together, in any order; building it is all or
nothing. A draft states a problem just if each of its texts can be read, and else the first check
that fails decides: that of the direction, of the objective, whether there is a constraint, then of
each constraint in turn.
-/
namespace Simplex

open Expression (Accepted)
open Text (BeginsOutside isBlank)

/-! ### Calls -/

namespace Draft

/-- What can be asked of a draft in the making. -/
inductive Call where
  | direction (text : String)
  | constraint (text : String)
  | constraints (texts : List String)

namespace Call

/-- The constraints that a call gives. -/
def texts : Call → List String
  | direction _ => []
  | constraint text => [text]
  | constraints texts => texts

/-- The direction that a call gives. -/
def direction? : Call → Option String
  | direction text => some text
  | constraint _ | constraints _ => none

end Call

/-- The draft after a call. -/
def call (d : Draft) : Call → Draft
  | .direction text => d.withDirection text
  | .constraint text => d.addConstraint text
  | .constraints texts => d.addConstraints texts

/-- The draft of an objective after calls, from the first to the last. -/
def after (objective : String) (calls : List Call) : Draft := calls.foldl call (ofObjective objective)

/-- The last direction that the calls give. -/
def lastDirection? (calls : List Call) : Option String := (calls.filterMap Call.direction?).getLast?

/-- A call adds its constraints at the end and puts its direction in place of an earlier one. -/
theorem call_eq (d : Draft) (c : Call) :
    d.call c = ⟨d.objective, d.constraints ++ c.texts, c.direction?.or d.direction⟩ := by
  cases c with
  | direction text => simp [call, withDirection, Call.texts, Call.direction?]
  | constraint | constraints => rfl

theorem lastDirection?_concat (calls : List Call) (c : Call) :
    lastDirection? (calls ++ [c]) = c.direction?.or (lastDirection? calls) := by
  unfold lastDirection?
  cases given : c.direction? <;> simp [given]

/-- The calls leave all constraints in the order of the calls, and the last direction. -/
theorem after_eq (objective : String) (calls : List Call) :
    after objective calls = ⟨objective, calls.flatMap Call.texts, lastDirection? calls⟩ := by
  -- on the last call, since what it gives comes behind everything before it
  induction calls using List.reverseRecOn with
  | nil => rfl
  | append_singleton calls c ih =>
    rw [after, List.foldl_concat, ← after, ih, call_eq, lastDirection?_concat, List.flatMap_append,
      List.flatMap_singleton]

theorem buildProblem_eq (objective : String) (constraints : List String)
    (direction : Option String) :
    buildProblem objective constraints direction = build ⟨objective, constraints, direction⟩ := by
  cases direction <;> rfl

end Draft

/-! ### Directions -/

/-- The text names the direction: its word in any case of the letters, between blanks. -/
def Direction.Names (text : String) (d : Direction) : Prop :=
  ∃ before word after, text.toList = before ++ (word ++ after) ∧ (∀ c ∈ before, isBlank c = true) ∧
    (∀ c ∈ after, isBlank c = true) ∧ word.map Char.toLower = d.symbol.toList

namespace Text

/-- Blanks stand on both sides of what is left of a text. -/
theorem exists_trimBlanks (text : String) : ∃ before after,
    text.toList = before ++ ((trimBlanks text).toList ++ after) ∧ (∀ c ∈ before, isBlank c = true) ∧
      ∀ c ∈ after, isBlank c = true := by
  let behind := (text.toList.dropWhile isBlank).reverse
  refine ⟨text.toList.takeWhile isBlank, (behind.takeWhile isBlank).reverse, ?_, ?_, ?_⟩
  · rw [trimBlanks, String.toList_ofList, ← List.reverse_append, List.takeWhile_append_dropWhile,
      List.reverse_reverse, List.takeWhile_append_dropWhile]
  · exact fun c member => List.mem_takeWhile_imp member
  · exact fun c member => List.mem_takeWhile_imp (List.mem_reverse.mp member)

theorem trimBlanks_of_joined {text : String} {before word after : List Char}
    (joined : text.toList = before ++ (word ++ after)) (leading : ∀ c ∈ before, isBlank c = true)
    (trailing : ∀ c ∈ after, isBlank c = true) (letters : ∀ c ∈ word, isBlank c = false)
    (nonempty : word ≠ []) : trimBlanks text = String.ofList word := by
  have first := (beginsOutside_of_all letters).append nonempty after
  have last : BeginsOutside isBlank word.reverse :=
    beginsOutside_of_all fun c member => letters c (List.mem_reverse.mp member)
  rw [trimBlanks, joined, dropWhile_append leading first, List.reverse_append,
    dropWhile_append (fun c member => trailing c (List.mem_reverse.mp member)) last,
    List.reverse_reverse]

/-- No blank is a letter that has another case. -/
theorem toLower_of_isBlank {c : Char} (blank : isBlank c = true) : c.toLower = c := by
  rw [isBlank, inRanges, List.any_eq_true] at blank
  obtain ⟨b, member, within⟩ := blank
  have apart := blankRanges_ascii b member
  rw [Bool.and_eq_true, decide_eq_true_eq, decide_eq_true_eq] at within
  rw [Char.toLower, dif_neg]
  rintro ⟨lower, upper⟩
  rw [ge_iff_le, UInt32.le_iff_toNat_le] at lower
  rw [UInt32.le_iff_toNat_le] at upper
  change 65 ≤ c.toNat at lower
  change c.toNat ≤ 90 at upper
  omega

end Text

namespace Direction

theorem not_isBlank_of_toLower {d : Direction} {c : Char} (letter : c.toLower ∈ d.symbol.toList) :
    isBlank c = false := by
  by_contra blank
  rw [Bool.not_eq_false] at blank
  rw [Text.toLower_of_isBlank blank] at letter
  have none : ∀ a ∈ d.symbol.toList, isBlank a = false := by
    cases d <;> simp [symbol, isBlank, Text.inRanges, Text.blankRanges]
  rw [none c letter] at blank
  cases blank

/-- A direction is read from the texts that name it. -/
theorem read_eq_ok_iff {text : String} {d : Direction} :
    Direction.read text = .ok d ↔ Names text d := by
  constructor
  · intro read
    obtain ⟨before, after, joined, leading, trailing⟩ := Text.exists_trimBlanks text
    refine ⟨before, _, after, joined, leading, trailing, ?_⟩
    simp only [Direction.read] at read
    split at read
    · rename_i word
      cases read
      exact word
    · split at read <;> cases read
      rename_i word
      exact word
  · rintro ⟨before, word, after, joined, leading, trailing, same⟩
    have letters : ∀ c ∈ word, isBlank c = false := fun c member =>
      not_isBlank_of_toLower (d := d) (same ▸ List.mem_map_of_mem member)
    have nonempty : word ≠ [] := by
      rintro rfl
      cases d <;> cases same
    have trimmed := Text.trimBlanks_of_joined joined leading trailing letters nonempty
    unfold Direction.read
    rw [trimmed, String.toList_ofList, same]
    cases d <;> rfl

theorem eq_of_read_error {text : String} {e : UnknownDirection}
    (failed : Direction.read text = .error e) : e = ⟨text⟩ := by
  simp only [Direction.read] at failed
  split at failed
  · cases failed
  · split at failed <;> cases failed
    rfl

theorem read_eq_error_iff {text : String} {e : UnknownDirection} :
    Direction.read text = .error e ↔ (∀ d, ¬ Names text d) ∧ e = ⟨text⟩ := by
  constructor
  · intro failed
    refine ⟨fun d names => ?_, eq_of_read_error failed⟩
    rw [← read_eq_ok_iff, failed] at names
    cases names
  · rintro ⟨unknown, rfl⟩
    cases read : Direction.read text with
    | ok d => exact absurd (read_eq_ok_iff.mp read) (unknown d)
    | error e => rw [eq_of_read_error read]

end Direction

/-! ### Building -/

namespace Draft

variable {d : Draft}

/-- The direction that a draft is for, minimization if none is given. -/
def Directed (d : Draft) (direction : Direction) : Prop :=
  (d.direction = none ∧ direction = .minimize) ∨
    ∃ text, d.direction = some text ∧ direction.Names text

/-- Every text of a draft can be read, and there is a constraint. -/
structure Valid (d : Draft) : Prop where
  directed : ∃ direction, d.Directed direction
  objective : Accepted (Text.withoutBlanks d.objective)
  nonempty : d.constraints ≠ []
  constraints : ∀ text ∈ d.constraints, ∃ c, readConstraint text = .ok c

/-- The problem has the direction of the draft, the objective merged, and for each text of a constraint
    the constraint that is read from it. -/
structure Builds (d : Draft) (p : Problem Float) : Prop where
  directed : d.Directed p.direction
  objective : ∃ e, Expression.read (Text.withoutBlanks d.objective) = .ok e ∧
    p.objective = e.variableTerms.merge ∧ p.objectiveConstant = e.constant
  nonempty : d.constraints ≠ []
  constraints : List.Forall₂ (fun text c => readConstraint text = .ok c) d.constraints p.constraints

/-- The first check of a draft that fails, with the text at fault. -/
inductive Fails (d : Draft) : ReadError → Prop
  | direction {text : String} (given : d.direction = some text)
      (unknown : ∀ direction : Direction, ¬ direction.Names text) : Fails d (.direction ⟨text⟩)
  | objective {issue : Expression.Issue} (directed : ∃ direction, d.Directed direction)
      (failed : Expression.read (Text.withoutBlanks d.objective) = .error issue) :
      Fails d (.expression (Text.withoutBlanks d.objective) issue)
  | noConstraints (directed : ∃ direction, d.Directed direction)
      (accepted : Accepted (Text.withoutBlanks d.objective)) (empty : d.constraints = []) :
      Fails d .noConstraints
  | constraint {before after : List String} {text : String} {cause : ReadError}
      (directed : ∃ direction, d.Directed direction)
      (accepted : Accepted (Text.withoutBlanks d.objective))
      (split : d.constraints = before ++ text :: after)
      (earlier : ∀ other ∈ before, ∃ c, readConstraint other = .ok c)
      (failed : readConstraint text = .error cause) : Fails d cause

/-- Reads the direction of a draft. -/
def readDirection (d : Draft) : Except ReadError Direction :=
  match d.direction with
  | none => .ok .minimize
  | some text => (Direction.read text).mapError .direction

/-- Reads the constraints of a draft. -/
def readConstraints (d : Draft) : Except ReadError (List (Comparison Float)) :=
  if d.constraints.isEmpty then .error .noConstraints else d.constraints.mapM readComparison

/-- A draft is read by three checks, each behind the one before it. -/
theorem read_eq_bind (d : Draft) : d.read = (do
    let direction ← d.readDirection
    let objective ← readExpression (Text.withoutBlanks d.objective)
    let comparisons ← d.readConstraints
    .ok ⟨direction, objective, comparisons⟩) := by
  unfold read readDirection readConstraints
  cases d.direction <;> split <;> rfl

theorem readDirection_eq_ok_iff {direction : Direction} :
    d.readDirection = .ok direction ↔ d.Directed direction := by
  unfold readDirection Directed
  cases d.direction with
  | none => simp [eq_comm]
  | some text => simp [mapError_eq_ok_iff, Direction.read_eq_ok_iff]

theorem readDirection_eq_error_iff {cause : ReadError} : d.readDirection = .error cause ↔
    ∃ text, d.direction = some text ∧ (∀ direction : Direction, ¬ direction.Names text) ∧
      cause = .direction ⟨text⟩ := by
  unfold readDirection
  cases d.direction with
  | none => simp
  | some text =>
    simp only [mapError_eq_error_iff, Direction.read_eq_error_iff, Option.some.injEq,
      exists_eq_left']
    constructor
    · rintro ⟨_, ⟨unknown, rfl⟩, rfl⟩
      exact ⟨unknown, rfl⟩
    · rintro ⟨unknown, rfl⟩
      exact ⟨_, ⟨unknown, rfl⟩, rfl⟩

theorem readExpression_eq_ok_iff {text : String} {e : Expression Float} :
    readExpression text = .ok e ↔ Expression.read text = .ok e := mapError_eq_ok_iff

theorem readExpression_eq_error_iff {text : String} {cause : ReadError} :
    readExpression text = .error cause ↔
      ∃ issue, Expression.read text = .error issue ∧ cause = .expression text issue := by
  rw [readExpression, mapError_eq_error_iff]
  exact exists_congr fun issue => and_congr_right' eq_comm

theorem readConstraints_eq_ok_iff {comparisons : List (Comparison Float)} :
    d.readConstraints = .ok comparisons ↔ d.constraints ≠ [] ∧
      List.Forall₂ (fun text c => readComparison text = .ok c) d.constraints comparisons := by
  rw [readConstraints, ← mapM_eq_ok_iff, ne_eq, ← List.isEmpty_iff]
  split <;> simp [*]

theorem exists_readConstraint_iff {text : String} :
    (∃ c, readConstraint text = .ok c) ↔ ∃ c, readComparison text = .ok c := by
  simp [readConstraint, map_eq_ok_iff]

theorem readConstraints_eq_error_iff {cause : ReadError} : d.readConstraints = .error cause ↔
    (d.constraints = [] ∧ cause = .noConstraints) ∨
      ∃ before text after, d.constraints = before ++ text :: after ∧
        (∀ other ∈ before, ∃ c, readConstraint other = .ok c) ∧
        readConstraint text = .error cause := by
  simp only [exists_readConstraint_iff]
  simp only [readConstraint, map_eq_error_iff]
  rw [← mapM_eq_error_iff, readConstraints]
  cases d.constraints with
  | nil => simp [eq_comm, pure, Except.pure]
  | cons text later => simp

/-- A draft is not read just if one of its checks fails, and then the first one says why. -/
theorem read_eq_error_iff {cause : ReadError} : d.read = .error cause ↔ d.Fails cause := by
  rw [read_eq_bind]
  simp only [bind_eq_error_iff, readDirection_eq_ok_iff, readDirection_eq_error_iff,
    readExpression_eq_ok_iff, readExpression_eq_error_iff, readConstraints_eq_error_iff]
  constructor
  -- one alternative for each check at which reading stops
  · rintro (⟨text, given, unknown, rfl⟩ | ⟨direction, directed, ⟨issue, failed, rfl⟩ |
      ⟨objective, accepted, (⟨empty, rfl⟩ | ⟨before, text, after, split, earlier, failed⟩) |
        ⟨_, _, failed⟩⟩⟩)
    · exact .direction given unknown
    · exact .objective ⟨direction, directed⟩ failed
    · exact .noConstraints ⟨direction, directed⟩ ⟨objective, accepted⟩ empty
    · exact .constraint ⟨direction, directed⟩ ⟨objective, accepted⟩ split earlier failed
    · cases failed
  · intro fails
    cases fails with
    | direction given unknown => exact .inl ⟨_, given, unknown, rfl⟩
    | objective directed failed =>
      obtain ⟨direction, directed⟩ := directed
      exact .inr ⟨direction, directed, .inl ⟨_, failed, rfl⟩⟩
    | noConstraints directed accepted empty =>
      obtain ⟨direction, directed⟩ := directed
      obtain ⟨objective, accepted⟩ := accepted
      exact .inr ⟨direction, directed, .inr ⟨objective, accepted, .inl (.inl ⟨empty, rfl⟩)⟩⟩
    | constraint directed accepted split earlier failed =>
      obtain ⟨direction, directed⟩ := directed
      obtain ⟨objective, accepted⟩ := accepted
      exact .inr ⟨direction, directed, .inr ⟨objective, accepted,
        .inl (.inr ⟨_, _, _, split, earlier, failed⟩)⟩⟩

theorem read_eq_ok_iff {s : Statement Float} : d.read = .ok s ↔ d.Directed s.direction ∧
    Expression.read (Text.withoutBlanks d.objective) = .ok s.objective ∧ d.constraints ≠ [] ∧
      List.Forall₂ (fun text c => readComparison text = .ok c) d.constraints s.comparisons := by
  rw [read_eq_bind]
  simp only [bind_eq_ok_iff, readDirection_eq_ok_iff, readExpression_eq_ok_iff,
    readConstraints_eq_ok_iff]
  constructor
  · rintro ⟨direction, directed, objective, accepted, comparisons, ⟨nonempty, each⟩, same⟩
    cases same
    exact ⟨directed, accepted, nonempty, each⟩
  · rintro ⟨directed, accepted, nonempty, each⟩
    exact ⟨s.direction, directed, s.objective, accepted, s.comparisons, ⟨nonempty, each⟩, rfl⟩

theorem exists_comparisons {texts : List String} {cs : List (Constraint Float)}
    (each : List.Forall₂ (fun text c => readConstraint text = .ok c) texts cs) :
    ∃ comparisons, List.Forall₂ (fun text c => readComparison text = .ok c) texts comparisons ∧
      comparisons.map Comparison.normalize = cs := by
  induction each with
  | nil => exact ⟨[], .nil, rfl⟩
  | cons first _ ih =>
    obtain ⟨comparisons, others, rfl⟩ := ih
    obtain ⟨c, read, rfl⟩ := map_eq_ok_iff.mp first
    exact ⟨c :: comparisons, .cons read others, rfl⟩

theorem exists_of_build {p : Problem Float} (built : d.build = .ok p) :
    ∃ s, d.read = .ok s ∧ s.normalize = p := map_eq_ok_iff.mp (mapError_eq_ok_iff.mp built)

theorem build_eq_ok_iff {p : Problem Float} : d.build = .ok p ↔ d.Builds p := by
  constructor
  · intro built
    obtain ⟨s, read, rfl⟩ := exists_of_build built
    obtain ⟨directed, objective, nonempty, each⟩ := read_eq_ok_iff.mp read
    refine ⟨directed, ⟨s.objective, objective, rfl, rfl⟩, nonempty, ?_⟩
    show List.Forall₂ _ d.constraints (s.comparisons.map Comparison.normalize)
    rw [List.forall₂_map_right_iff]
    exact each.imp fun _ c read => map_eq_ok_iff.mpr ⟨c, read, rfl⟩
  · rintro ⟨directed, ⟨e, objective, merged, constant⟩, nonempty, each⟩
    obtain ⟨comparisons, each, normal⟩ := exists_comparisons each
    have read : d.read = .ok ⟨p.direction, e, comparisons⟩ :=
      read_eq_ok_iff.mpr ⟨directed, objective, nonempty, each⟩
    refine mapError_eq_ok_iff.mpr (map_eq_ok_iff.mpr ⟨_, read, ?_⟩)
    rw [Statement.normalize, ← merged, ← constant, normal]

/-- A draft that is not built keeps its texts. -/
theorem build_eq_error_iff {e : DraftError} :
    d.build = .error e ↔ e = d.error e.cause ∧ d.Fails e.cause := by
  simp only [build, mapError_eq_error_iff, map_eq_error_iff, ← read_eq_error_iff]
  constructor
  · rintro ⟨cause, failed, rfl⟩
    exact ⟨rfl, failed⟩
  · rintro ⟨same, failed⟩
    exact ⟨e.cause, failed, same.symm⟩

theorem Fails.not_valid {cause : ReadError} (fails : d.Fails cause) : ¬ d.Valid := by
  rintro ⟨directed, ⟨e, accepted⟩, nonempty, constraints⟩
  cases fails with
  | direction given unknown =>
    obtain ⟨direction, ⟨none, _⟩ | ⟨text, own, names⟩⟩ := directed
    · cases none.symm.trans given
    · cases own.symm.trans given
      exact unknown direction names
  | objective _ failed => cases accepted.symm.trans failed
  | noConstraints _ _ empty => exact nonempty empty
  | constraint _ _ split _ failed =>
    obtain ⟨c, read⟩ := constraints _ (split ▸ List.mem_append_right _ List.mem_cons_self)
    cases read.symm.trans failed

theorem Builds.valid {p : Problem Float} (builds : d.Builds p) : d.Valid where
  directed := ⟨_, builds.directed⟩
  objective := builds.objective.imp fun _ h => h.1
  nonempty := builds.nonempty
  constraints text member := by
    obtain ⟨same, each⟩ := List.forall₂_iff_get.mp builds.constraints
    obtain ⟨⟨i, inside⟩, rfl⟩ := List.mem_iff_get.mp member
    exact ⟨_, each i inside (same ▸ inside)⟩

end Draft

/-! ### What a problem is made of -/

/-- The objective and the left side of every constraint are merged. -/
structure Problem.Merged (p : Problem Float) : Prop where
  objective : p.objective.Merged
  constraints : ∀ c ∈ p.constraints, c.lhs.Merged

theorem Draft.merged_of_build {d : Draft} {p : Problem Float} (built : d.build = .ok p) :
    p.Merged := by
  obtain ⟨s, _, rfl⟩ := Draft.exists_of_build built
  refine ⟨Expression.merged_merge fun _ => Expression.name_ne_of_mem, fun c member => ?_⟩
  obtain ⟨comparison, _, rfl⟩ := List.mem_map.mp member
  exact Expression.merged_normalize comparison

/-- Building is all or nothing, whatever calls put the draft together: the objective counts, all
    constraints in the order of the calls and the last direction. It succeeds just if every text can
    be read and there is a constraint; the problem is then read from the texts, merged. Otherwise the
    error has the raw texts, and its cause is the first check that fails. -/
theorem build_all_or_nothing (objective : String) (calls : List Draft.Call) :
    let d : Draft := ⟨objective, calls.flatMap Draft.Call.texts, Draft.lastDirection? calls⟩
    (Draft.after objective calls).build = buildProblem d.objective d.constraints d.direction ∧
    ((∃ p, (Draft.after objective calls).build = .ok p) ↔ d.Valid) ∧
    (∀ p, (Draft.after objective calls).build = .ok p ↔ d.Builds p) ∧
    (∀ p, (Draft.after objective calls).build = .ok p → p.Merged) ∧
    ∀ e, (Draft.after objective calls).build = .error e ↔
      (e.objective = objective ∧ e.constraints = calls.flatMap Draft.Call.texts ∧
        e.direction = (Draft.lastDirection? calls).getD "min") ∧ d.Fails e.cause := by
  intro d
  rw [Draft.after_eq, Draft.buildProblem_eq]
  refine ⟨rfl, ⟨?_, fun valid => ?_⟩, fun p => Draft.build_eq_ok_iff,
    fun p => Draft.merged_of_build, fun e => ?_⟩
  · rintro ⟨p, built⟩
    exact (Draft.build_eq_ok_iff.mp built).valid
  · cases built : d.build with
    | ok p => exact ⟨p, rfl⟩
    | error e => exact absurd valid (Draft.build_eq_error_iff.mp built).2.not_valid
  · rw [Draft.build_eq_error_iff]
    refine and_congr_left' ⟨?_, ?_⟩
    · intro same
      rw [same]
      exact ⟨rfl, rfl, rfl⟩
    · obtain ⟨direction, objective, constraints, cause⟩ := e
      rintro ⟨rfl, rfl, rfl⟩
      rfl

/-- A direction that a later one replaces, and constraints one by one and together. -/
def mixedCalls : List Draft.Call :=
  [.direction "max", .constraint "x - 2 <= 2x + y + x", .direction " Min ", .constraints ["5 > y"]]

/-- With a faulty objective and a faulty constraint, the objective is the cause. -/
theorem mixedCalls_build :
    (∃ p, (Draft.after "3 - 2x + x + 1" mixedCalls).build = .ok p ∧ p.direction = .minimize ∧
      p.Merged) ∧
    ∃ e, (Draft.after "x *" (mixedCalls ++ [.constraint "y"])).build = .error e ∧
      e.direction = " Min " ∧ e.constraints = ["x - 2 <= 2x + y + x", "5 > y", "y"] ∧
      Draft.Fails ⟨"x *", ["x - 2 <= 2x + y + x", "5 > y", "y"], some " Min "⟩ e.cause := by
  have built : (Draft.after "3 - 2x + x + 1" mixedCalls).build =
      .ok ⟨.minimize, [{ coefficient := -1, name := "x" }], 4,
        [⟨[{ coefficient := -2, name := "x" }, { coefficient := -1, name := "y" }], .le, 2⟩,
          ⟨[{ coefficient := -1, name := "y" }], .gt, -5⟩]⟩ := by decide +kernel
  have failed : (Draft.after "x *" (mixedCalls ++ [.constraint "y"])).build =
      .error ⟨" Min ", "x *", ["x - 2 <= 2x + y + x", "5 > y", "y"],
        .expression "x*" (.unexpectedChar '*' 1)⟩ := by decide +kernel
  obtain ⟨_, _, _, merged, _⟩ := build_all_or_nothing "3 - 2x + x + 1" mixedCalls
  obtain ⟨_, _, _, _, fails⟩ := build_all_or_nothing "x *" (mixedCalls ++ [.constraint "y"])
  exact ⟨⟨_, built, rfl, merged _ built⟩, _, failed, rfl, rfl, ((fails _).mp failed).2⟩

end Simplex
