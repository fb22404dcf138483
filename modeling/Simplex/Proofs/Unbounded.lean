import Simplex.Proofs.Feasibility

/-!
What an unbounded report says. Along the reported column the equations keep holding and the
objective grows without end; no variable ever becomes negative there just if no entry of the column
is positive. An overlooked row is such an entry, and then the report says nothing.
-/
namespace Simplex

namespace Tableau

/-- No row limits how far a column may grow. -/
def Unlimited (t : Tableau Rat) (s : Symbol) : Prop := ∀ r ∈ t.rows, r.coefficient s ≤ 0

instance (t : Tableau Rat) (s : Symbol) : Decidable (t.Unlimited s) :=
  inferInstanceAs (Decidable (∀ r ∈ t.rows, r.coefficient s ≤ 0))

/-- How much a basis gives way while the column `s` grows by one. -/
def gives (t : Tableau Rat) (s c : Symbol) : Rat :=
  match t.rows.find? fun r => decide (r.basis = c) with
  | some r => -r.coefficient s
  | none => 0

/-- How much each column changes while the column `s` grows by one and the equations hold. -/
def slope (t : Tableau Rat) (s c : Symbol) : Rat := (if c = s then 1 else 0) + t.gives s c

variable {form : StandardForm Rat} {t : Tableau Rat} {s : Symbol}

theorem rests_gives : t.Rests (t.gives s) := rests_atBasis _

theorem gives_nonneg (unlimited : t.Unlimited s) (c : Symbol) : 0 ≤ t.gives s c :=
  atBasis_nonneg (fun r member => neg_nonneg.mpr (unlimited r member)) c

theorem slope_nonneg (unlimited : t.Unlimited s) (c : Symbol) : 0 ≤ t.slope s c := by
  have gives := gives_nonneg unlimited c
  unfold slope
  split
  · linarith
  · linarith

namespace Standing

variable (h : t.Standing)
include h

theorem gives_basis {r : Row Rat} (member : r ∈ t.rows) : t.gives s r.basis = -r.coefficient s :=
  h.atBasis_basis _ member

private theorem sum_slope (column : s ∈ t.columns) (f : Symbol → Rat) :
    (t.columns.map fun c => f c * t.slope s c).sum =
      f s + (t.columns.map fun c => f c * t.gives s c).sum := by
  have own : (t.columns.map fun c => f c * if c = s then 1 else 0).sum = f s := by
    rw [sum_single h.columns.columns_nodup column _ fun c _ other => by rw [if_neg other, mul_zero],
      if_pos rfl, mul_one]
  rw [← own, ← List.sum_map_add]
  congr 1
  refine List.map_congr_left fun c _ => ?_
  rw [slope, mul_add]

/-- Along a column no equation changes. -/
theorem dot_slope (column : s ∈ t.columns) {r : Row Rat} (member : r ∈ t.rows) :
    r.dot t.columns (t.slope s) = 0 := by
  have giving : (t.columns.map fun c => r.coefficient c * t.gives s c).sum = -r.coefficient s :=
    (h.dot_eq rests_gives member).trans (h.gives_basis member)
  unfold Row.dot
  rw [h.sum_slope column, giving]
  ring

theorem sum_price_slope (column : s ∈ t.columns) :
    (t.columns.map fun c => t.price c * t.slope s c).sum = t.price s := by
  rw [h.sum_slope column, h.sum_price_eq_zero rests_gives, add_zero]

theorem ne_basis_of_price (paid : t.price s ≠ 0) {r : Row Rat} (member : r ∈ t.rows) :
    r.basis ≠ s := by
  rintro rfl
  exact paid (h.price_basis member)

end Standing

end Tableau

namespace StandardForm

/-- The point that is reached from an extended point when a column grows. -/
def along (form : StandardForm Rat) (t : Tableau Rat) (s : Symbol) (v : String → Rat)
    (growth : Rat) (n : String) : Rat :=
  form.extend v n + growth * match form.symbols.symbol? n with
    | some c => t.slope s c
    | none => 0

variable {p : Problem Rat} {form : StandardForm Rat} {t : Tableau Rat} {s : Symbol}
variable {v : String → Rat}

theorem along_name {c : Symbol} (member : c ∈ form.symbols.symbols) (growth : Rat) :
    form.along t s v growth (form.symbols.name c) =
      form.extend v (form.symbols.name c) + growth * t.slope s c := by
  rw [along, form.symbols.symbol?_name member]

theorem sum_along (columns : t.columns = form.symbols.symbols) (f : Symbol → Rat)
    (growth : Rat) :
    (t.columns.map fun c => f c * form.along t s v growth (form.symbols.name c)).sum =
      (t.columns.map fun c => f c * form.extend v (form.symbols.name c)).sum +
        growth * (t.columns.map fun c => f c * t.slope s c).sum := by
  rw [← List.sum_map_mul_left, ← List.sum_map_add]
  congr 1
  refine List.map_congr_left fun c listed => ?_
  rw [along_name (columns ▸ listed)]
  ring

section

variable (represents : form.Represents p) (canonical : t.Canonical form)
variable (column : s ∈ t.columns) (feasible : p.Feasible v)
include represents canonical column feasible

theorem satisfied_along (growth : Rat) : form.Satisfied (form.along t s v growth) := by
  have before := (canonical.equivalent _).mpr (represents.satisfied_extend feasible)
  refine (canonical.equivalent _).mp fun r member => ?_
  have still := canonical.standing.dot_slope column member
  unfold Row.dot at still ⊢
  rw [sum_along canonical.columns, still, mul_zero, add_zero]
  exact before r member

theorem objective_along (growth : Rat) :
    form.objective.value (form.along t s v growth) =
      form.objective.value (form.extend v) - growth * t.price s := by
  rw [canonical.objective_eq represents (satisfied_along represents canonical column feasible _),
    canonical.objective_eq represents (represents.satisfied_extend feasible),
    sum_along canonical.columns, canonical.standing.sum_price_slope column]
  ring

theorem feasible_along_iff (bounds : p.BoundsOnly) (growth : Rat) :
    p.Feasible (form.along t s v growth) ↔ ∀ c ∈ form.symbols.symbols,
      0 ≤ form.extend v (form.symbols.name c) + growth * t.slope s c := by
  rw [represents.feasible_iff bounds (satisfied_along represents canonical column feasible growth)]
  constructor
  · intro nonneg c member
    rw [← along_name member]
    exact nonneg _ (form.symbols.name_mem member)
  · intro nonneg n known
    obtain ⟨c, member, rfl⟩ := form.symbols.exists_symbol known
    rw [along_name member]
    exact nonneg c member

end

/-- Growing a column keeps every allowed point allowed just if no row limits it. -/
theorem unlimited_iff (represents : form.Represents p) (canonical : t.Canonical form)
    (bounds : p.BoundsOnly) (column : s ∈ t.columns) (paid : t.price s ≠ 0)
    (start : p.Feasible v) :
    t.Unlimited s ↔ ∀ v growth, p.Feasible v → 0 ≤ growth →
      p.Feasible (form.along t s v growth) := by
  constructor
  · intro unlimited v growth feasible nonneg
    refine (feasible_along_iff represents canonical column feasible bounds growth).mpr ?_
    intro c member
    have before := (represents.feasible_iff bounds (represents.satisfied_extend feasible)).mp
      (represents.feasible_extend.mpr feasible) _ (form.symbols.name_mem member)
    exact add_nonneg before (mul_nonneg nonneg (Tableau.slope_nonneg unlimited c))
  · intro stays r member
    by_contra limited
    have positive : 0 < r.coefficient s := not_le.mp limited
    have basis := canonical.basis r member
    have own := (represents.feasible_iff bounds (represents.satisfied_extend start)).mp
      (represents.feasible_extend.mpr start) _ (form.symbols.name_mem basis)
    -- grow the column by one more than the row allows
    let growth := form.extend v (form.symbols.name r.basis) / r.coefficient s + 1
    have far : 0 ≤ growth := add_nonneg (div_nonneg own positive.le) zero_le_one
    have after := (feasible_along_iff represents canonical column start bounds growth).mp
      (stays v growth start far) r.basis basis
    have loss : growth * r.coefficient s =
        form.extend v (form.symbols.name r.basis) + r.coefficient s := by
      simp only [growth]
      field_simp
    rw [Tableau.slope, if_neg (canonical.standing.ne_basis_of_price paid member), zero_add,
      canonical.standing.gives_basis member, mul_neg, loss] at after
    linarith

/-- Along a column that no row limits and that earns, the objective passes every bound. -/
theorem exists_objective_gt (represents : form.Represents p) (canonical : t.Canonical form)
    (bounds : p.BoundsOnly) (column : s ∈ t.columns) (cheap : t.price s < 0)
    (start : p.Feasible v) (unlimited : t.Unlimited s) (bound : Rat) :
    ∃ w, p.Feasible w ∧ bound < form.objective.value w := by
  let growth := (|bound - form.objective.value (form.extend v)| + 1) / -t.price s
  have far : 0 ≤ growth := div_nonneg (by positivity) (neg_nonneg.mpr cheap.le)
  have stays := (unlimited_iff represents canonical bounds column cheap.ne start).mp unlimited
  refine ⟨_, stays v growth start far, ?_⟩
  rw [objective_along represents canonical column start]
  have gain : growth * t.price s = -(|bound - form.objective.value (form.extend v)| + 1) := by
    have paid := cheap.ne
    simp only [growth]
    field_simp
  rw [gain]
  linarith [le_abs_self (bound - form.objective.value (form.extend v))]

end StandardForm

namespace Problem

/-- The objective is past a bound in the direction of the problem. -/
def Beyond (p : Problem Rat) (bound : Rat) (v : String → Rat) : Prop :=
  match p.direction with
  | .maximize => bound < p.objectiveAt v
  | .minimize => p.objectiveAt v < -bound

/-- What the objective of the standard form must pass for the problem's to be past a bound. -/
def threshold (p : Problem Rat) (bound : Rat) : Rat :=
  match p.direction with
  | .maximize => bound - p.objectiveConstant
  | .minimize => bound + p.objectiveConstant

end Problem

variable {p : Problem Rat}

theorem StandardForm.Represents.beyond {form : StandardForm Rat} (represents : form.Represents p)
    (pure : p.PureObjective) {bound : Rat} {w : String → Rat}
    (above : p.threshold bound < form.objective.value w) : p.Beyond bound w := by
  rw [represents.objective_value pure] at above
  unfold Problem.Beyond Problem.objectiveAt
  unfold Problem.threshold at above
  cases direction : p.direction with
  | maximize =>
    rw [direction] at above
    simp only at above ⊢
    linarith
  | minimize =>
    rw [direction] at above
    simp only at above ⊢
    linarith

/-- Where no row has a positive ratio, the rows that limit the column hold it at zero. -/
theorem Tableau.not_heldAtZero_iff {t : Tableau Rat} {s : Symbol} (rated : t.Rated s 0)
    (none : ∀ r ∈ t.rows, ∀ q, r.ratio = some q → q ≤ 0) (nonneg : t.Nonneg) :
    ¬ t.HeldAtZero s ↔ t.Unlimited s := by
  constructor
  · intro free r member
    by_contra limited
    have positive : 0 < r.coefficient s := not_le.mp limited
    have small := none r member _ (rated.ratio_of_pos member positive)
    rw [div_le_iff₀ positive, zero_mul] at small
    exact free ⟨r, member, le_antisymm small (nonneg r member), positive⟩
  · rintro unlimited ⟨r, member, _, positive⟩
    exact absurd positive (not_lt.mpr (unlimited r member))

/-- Where a column enters and no row leaves, the rows that limit the column are those that are
    overlooked. -/
theorem Tableau.not_overlooks_iff {t : Tableau Rat} {s : Symbol} (enters : t.Enters s 0)
    (none : ∀ r ∈ t.rows, ∀ q, r.ratio = some q → q ≤ 0) (nonneg : t.Nonneg) :
    ¬ t.Overlooks ↔ t.Unlimited s := by
  rw [overlooks_iff enters.chosen]
  exact not_heldAtZero_iff enters.rated none nonneg

variable {report : Report Rat} {cap : Nat}

/-- Where the first tableau has no negative right-hand side, an unbounded report is right if no row
    limits its column, which is just what makes the column lead from allowed points to allowed
    points only. No tableau overlooks a row just if none has a negative right-hand side and no row
    limits the column. -/
theorem unbounded_of_unlimited (pure : p.PureObjective) (bounds : p.BoundsOnly)
    (solved : Solver.solve ⟨cap, 0⟩ p = .ok report) (unbounded : report.termination = .unbounded)
    (start : ∀ first, report.tableaux.head? = some first → first.Nonneg) :
    ∃ last s, report.tableaux.getLast? = some last ∧ last.enteringColumn? 0 = some s ∧
      (last.Unlimited s → ∀ bound, ∃ v, p.Feasible v ∧ p.Beyond bound v) ∧
      (last.Unlimited s ↔ ∀ v growth, p.Feasible v → 0 ≤ growth →
        p.Feasible (report.standardForm.along last s v growth)) ∧
      ((∀ t ∈ report.tableaux, ¬ t.Overlooks) ↔
        (∀ t ∈ report.tableaux, t.Nonneg) ∧ last.Unlimited s) := by
  obtain ⟨represents, trace, last, s, listed, enters, none⟩ :=
    Solver.unbounded_trace le_rfl solved unbounded
  have canonical := trace.canonical last (List.mem_of_getLast? listed)
  have cheap : last.price s < 0 := by simpa using enters.cheap
  have chain := trace.chain
  obtain ⟨first, rest, cons⟩ := eq_cons_of_getLast? listed
  have nonneg : first.Nonneg := start first (cons ▸ rfl)
  have initial := trace.canonical first (cons ▸ List.mem_cons_self)
  have feasible := (initial.feasible_solution_iff represents bounds).mpr nonneg
  rw [cons] at chain listed ⊢
  refine ⟨last, s, listed, enters.chosen, fun unlimited bound => ?_,
    StandardForm.unlimited_iff represents canonical bounds enters.member cheap.ne feasible, ?_⟩
  · obtain ⟨w, allowed, above⟩ := StandardForm.exists_objective_gt represents canonical bounds
      enters.member cheap feasible unlimited (p.threshold bound)
    exact ⟨w, allowed, represents.beyond pure above⟩
  · have settled := fun all : ∀ t ∈ first :: rest, t.Nonneg =>
      Tableau.not_overlooks_iff enters none (all last (List.mem_of_getLast? listed))
    rw [forall_mem_iff_dropLast listed]
    constructor
    · rintro ⟨before, passed⟩
      have all := (all_nonneg_iff chain).mpr ⟨nonneg, before⟩
      exact ⟨all, (settled all).mp passed⟩
    · rintro ⟨all, unlimited⟩
      exact ⟨((all_nonneg_iff chain).mp all).2, (settled all).mpr unlimited⟩

/-- Maximize `x + y` where `x` is at most one more than `y`. -/
def corridor : Problem Rat where
  direction := .maximize
  objective := [{ coefficient := 1, name := "x" }, { coefficient := 1, name := "y" }]
  objectiveConstant := 0
  constraints := [⟨[{ coefficient := 1, name := "x" }, { coefficient := -1, name := "y" }], .le, 1⟩]

theorem corridor_unbounded : ∃ report, Solver.solve ⟨10, 0⟩ corridor = .ok report ∧
    ∀ bound, ∃ v, corridor.Feasible v ∧ corridor.Beyond bound v := by
  obtain ⟨report, solved, checked⟩ := exists_ok (Solver.solve ⟨10, 0⟩ corridor)
    (fun r : Report Rat => r.termination == .unbounded &&
      (r.tableaux.head?.all fun t : Tableau Rat => decide t.Nonneg) &&
      r.tableaux.getLast?.all fun t : Tableau Rat =>
        (t.enteringColumn? 0).all fun s => decide (t.Unlimited s)) (by decide +kernel)
  simp only [Bool.and_eq_true, beq_iff_eq] at checked
  obtain ⟨⟨stopped, begun⟩, ended⟩ := checked
  have start : ∀ first, report.tableaux.head? = some first → first.Nonneg := by
    intro first head
    rw [head] at begun
    exact of_decide_eq_true begun
  obtain ⟨last, s, listed, entering, beyond, _⟩ :=
    unbounded_of_unlimited (by decide) (by decide) solved stopped start
  rw [listed, Option.all_some, entering] at ended
  exact ⟨report, solved, beyond (of_decide_eq_true ended)⟩

/-- Maximize `x` where `x` is at most zero. -/
def pinned : Problem Rat where
  direction := .maximize
  objective := [{ coefficient := 1, name := "x" }]
  objectiveConstant := 0
  constraints := [⟨[{ coefficient := 1, name := "x" }], .le, 0⟩]

/-- The one row of this problem is overlooked at once, so it is called unbounded. -/
theorem pinned_not_unbounded : pinned.PureObjective ∧ pinned.BoundsOnly ∧
    ∃ report, Solver.solve ⟨10, 0⟩ pinned = .ok report ∧ report.termination = .unbounded ∧
      (∀ first, report.tableaux.head? = some first → first.Nonneg) ∧
      ¬ ∃ v, pinned.Feasible v ∧ pinned.Beyond 0 v := by
  refine ⟨by decide, by decide, ?_⟩
  obtain ⟨report, solved, checked⟩ := exists_ok (Solver.solve ⟨10, 0⟩ pinned)
    (fun r : Report Rat => r.termination == .unbounded &&
      r.tableaux.head?.all fun t : Tableau Rat => decide t.Nonneg) (by decide +kernel)
  simp only [Bool.and_eq_true, beq_iff_eq] at checked
  refine ⟨report, solved, checked.1, ?_, ?_⟩
  · intro first head
    have begun := checked.2
    rw [head] at begun
    exact of_decide_eq_true begun
  · rintro ⟨v, feasible, beyond⟩
    have atMost := feasible.allows _ (List.mem_singleton.mpr rfl)
    simp [Constraint.Allows, Relation.Relaxed] at atMost
    simp [Problem.Beyond, pinned, Problem.objectiveAt] at beyond
    linarith

end Simplex
