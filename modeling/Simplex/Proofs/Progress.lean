import Simplex.Proofs.Extraction
import Simplex.Proofs.Histories
import Mathlib.Data.Finset.Powerset

/-!
Progress. Every pivot raises the value of the tableau, because the ratio of the row that leaves is
positive even where a right-hand side is negative. The value depends on the basis only, so no basis
comes back, and there are only so many of them.
-/
namespace Simplex

namespace Tableau

/-- The columns in the basis. -/
def bases {α : Type} (t : Tableau α) : Finset Symbol := (t.rows.map Row.basis).toFinset

/-- From one tableau to the next the value grows by the relative cost of the pivot column, taken as
    often as the ratio of the pivot row says, and that is positive. -/
def Gains (before after : Tableau Rat) : Prop :=
  ∃ p row ratio, before.pivot = some p ∧ before.rows[p.row]? = some row ∧ row.ratio = some ratio ∧
    after.objectiveValue - before.objectiveValue = -before.relativeCost p.column * ratio ∧
    0 < after.objectiveValue - before.objectiveValue

variable {form : StandardForm Rat} {t u : Tableau Rat}

theorem mem_bases {s : Symbol} : s ∈ t.bases ↔ ∃ r ∈ t.rows, r.basis = s := by
  simp [bases]

namespace Canonical

theorem card_bases (h : t.Canonical form) : t.bases.card = form.constraints.length := by
  have distinct : (t.rows.map Row.basis).Nodup :=
    List.Nodup.map_on (fun r member o other same => h.standing.basis_inj other member same)
      h.rowsNumbered.rows_nodup
  unfold bases
  rw [List.toFinset_card_of_nodup distinct, List.length_map, h.length_rows]

theorem bases_subset (h : t.Canonical form) : t.bases ⊆ form.symbols.symbols.toFinset := by
  intro s member
  obtain ⟨r, listed, rfl⟩ := mem_bases.mp member
  exact List.mem_toFinset.mpr (h.basis r listed)

/-- Canonical tableaux of one standard form with the same basis have the same value: the solution of
    the one rests off the basis of the other. -/
theorem objectiveValue_of_bases {p : Problem Rat} (represents : form.Represents p)
    (ht : t.Canonical form) (hu : u.Canonical form) (same : t.bases = u.bases) :
    t.objectiveValue = u.objectiveValue := by
  have rests : u.Rests fun s => (Solution.ofTableau form t).value (form.symbols.name s) := by
    intro s member outside
    refine ht.rests_solution s ?_ fun r listed basis => ?_
    · rw [ht.columns, ← hu.columns]
      exact member
    · have basic : s ∈ u.bases := same ▸ mem_bases.mpr ⟨r, listed, basis⟩
      obtain ⟨o, other, own⟩ := mem_bases.mp basic
      exact outside o other own
  rw [← ht.objective_solution represents, hu.objective_eq represents ht.satisfied_solution,
    hu.standing.sum_price_eq_zero rests, sub_zero]

end Canonical

end Tableau

/-- The number of choices of as many columns as there are rows. -/
def History.choices {α : Type} (h : History α) : Nat :=
  h.latest.columns.length.choose h.latest.rows.length

variable {p : Problem Rat} {form : StandardForm Rat} {tolerance : Rat}

theorem Follows.gains (nonneg : 0 ≤ tolerance) {before after : Tableau Rat}
    (h : Follows form tolerance before after) : before.Gains after := by
  obtain ⟨t, next, p, canonical, chosen, made, same⟩ := h
  have fits := canonical.toFits.of_bare (Tableau.bare_of_selected chosen).symm
  obtain ⟨enters, source, pivots, ratio, positive, _⟩ :=
    Tableau.pivot_ok canonical.columnsInOrder canonical.rowsNumbered nonneg chosen
  have priced : before.relativeCost p.column = before.price p.column :=
    canonical.columnsInOrder.priced chosen p.column enters.member
  have gain : after.objectiveValue - before.objectiveValue =
      -before.relativeCost p.column * (source.rhs / p.element) := by
    rw [Tableau.objectiveValue_of_bare same, pivots.objectiveValue_next fits.rowsNumbered made, priced]
    ring
  refine ⟨p, source, _, pivots.recorded, pivots.found, ratio, gain, ?_⟩
  have cheap : 0 < -before.relativeCost p.column := by
    have below := enters.cheap
    rw [priced]
    linarith
  rw [gain]
  exact mul_pos cheap positive

namespace Trace

variable {tableaux : List (Tableau Rat)} (h : Trace form tolerance tableaux)
include h

theorem gains (nonneg : 0 ≤ tolerance) : tableaux.IsChain Tableau.Gains :=
  h.chain.imp fun _ _ follows => follows.gains nonneg

theorem pairwise_lt (nonneg : 0 ≤ tolerance) :
    tableaux.Pairwise fun v w => v.objectiveValue < w.objectiveValue := by
  have rising : (tableaux.map Tableau.objectiveValue).IsChain (· < ·) := by
    refine List.isChain_map_of_isChain _ ?_ (h.gains nonneg)
    intro v w gains
    obtain ⟨_, _, _, _, _, _, _, positive⟩ := gains
    exact sub_pos.mp positive
  exact List.pairwise_map.mp (List.isChain_iff_pairwise.mp rising)

theorem bases_nodup (represents : form.Represents p) (nonneg : 0 ≤ tolerance) :
    (tableaux.map Tableau.bases).Nodup := by
  refine List.pairwise_map.mpr (List.Pairwise.imp_of_mem ?_ (h.pairwise_lt nonneg))
  intro v w hv hw lower equal
  have value := (h.canonical v hv).objectiveValue_of_bases represents (h.canonical w hw) equal
  exact absurd value lower.ne

/-- A trace has at most one tableau for each choice of as many columns as there are rows. -/
theorem length_le (represents : form.Represents p) (nonneg : 0 ≤ tolerance) :
    tableaux.length ≤ form.symbols.size.choose form.constraints.length := by
  let chosen := (tableaux.map Tableau.bases).toFinset
  have inside : chosen ⊆ form.symbols.symbols.toFinset.powersetCard form.constraints.length := by
    intro basis member
    obtain ⟨v, listed, rfl⟩ := List.mem_map.mp (List.mem_toFinset.mp member)
    have known := h.canonical v listed
    exact Finset.mem_powersetCard.mpr ⟨known.bases_subset, known.card_bases⟩
  have columns : form.symbols.symbols.toFinset.card = form.symbols.size := by
    rw [List.toFinset_card_of_nodup form.symbols.symbols_nodup, SymbolTable.length_symbols]
  calc tableaux.length
    _ = chosen.card := by
      rw [List.toFinset_card_of_nodup (h.bases_nodup represents nonneg), List.length_map]
    _ ≤ (form.symbols.symbols.toFinset.powersetCard form.constraints.length).card :=
      Finset.card_le_card inside
    _ = form.symbols.size.choose form.constraints.length := by
      rw [Finset.card_powersetCard, columns]

end Trace

/-- Every lawful session of a problem has a history that gains, with no basis twice and no more
    tableaux than choices of a basis. -/
theorem Session.Lawful.progress {s : Session Rat} (lawful : s.Lawful p tolerance)
    (nonneg : 0 ≤ tolerance) {first : History Rat} (framed : Session.firstHistory p = .ok first) :
    s.tableaux.IsChain Tableau.Gains ∧ (s.tableaux.map Tableau.bases).Nodup ∧
      s.tableaux.length ≤ first.choices := by
  obtain ⟨known, made, _⟩ := Session.firstHistory_ok framed
  have represents := StandardForm.represents_of_ofProblem known
  have fits := Tableau.initial_fits made
  have choices : first.choices = first.form.symbols.size.choose first.form.constraints.length := by
    rw [History.choices, fits.columns, SymbolTable.length_symbols, fits.length_rows]
  rcases lawful.tableaux_eq with none | ⟨form, earlier, t, u, again, reached, same, all⟩
  · rw [none]
    exact ⟨.nil, .nil, Nat.zero_le _⟩
  · have own : first.form = form := Except.ok.inj (known.symm.trans again)
    subst own
    have trace := reached.trace represents nonneg same
    rw [all, choices]
    exact ⟨trace.gains nonneg, trace.bases_nodup represents nonneg,
      trace.length_le represents nonneg⟩

/-- No session cycles, whatever is called on it: each pivot gains, no basis comes back, there are no
    more tableaux than choices of a basis, and a limit of that many pivots is never reached. -/
theorem never_cycles (nonneg : 0 ≤ tolerance) {first : History Rat}
    (framed : Session.firstHistory p = .ok first) :
    (∀ calls s, (Session.ofProblem p tolerance).after calls = s →
      (∀ next iteration, s.step = (next, .ok (.pivoted iteration)) →
        ∃ earlier last before made, s.tableaux = earlier ++ [last] ∧ before.bare = last.bare ∧
          next.tableaux = earlier ++ [before, made] ∧ before.Gains made) ∧
      s.tableaux.IsChain Tableau.Gains ∧ (s.tableaux.map Tableau.bases).Nodup ∧
      s.tableaux.length ≤ first.choices) ∧
    ∀ cap, first.choices ≤ cap → ∀ limit tableaux,
      Solver.solve ⟨cap, tolerance⟩ p ≠ .error (.iterationLimit limit tableaux) := by
  constructor
  · rintro calls s rfl
    have fresh : (Session.ofProblem p tolerance).Lawful p tolerance := .ofProblem
    have lawful := fresh.after calls
    refine ⟨fun next iteration stepped => ?_, lawful.progress nonneg framed⟩
    obtain ⟨earlier, last, before, made, old, same, new⟩ := Session.tableaux_pivoted stepped
    have later := lawful.step
    rw [stepped] at later
    have chain := (later.progress nonneg framed).1
    rw [new] at chain
    exact ⟨earlier, last, before, made, old, same, new,
      (List.isChain_append_cons_cons.mp chain).2.1⟩
  · intro cap enough limit tableaux stopped
    obtain ⟨s, lawful, longer⟩ := Solver.solve_iterationLimit stopped
    have few := (lawful.progress nonneg framed).2.2
    simp only at longer
    omega

/-- Maximize `x` where `x` is at least two; the first pivot is on a negative entry. -/
def floored : Problem Rat where
  direction := .maximize
  objective := [{ coefficient := 1, name := "x" }]
  objectiveConstant := 0
  constraints := [⟨[{ coefficient := 1, name := "x" }], .ge, 2⟩]

theorem floored_never_cycles : ∃ first, Session.firstHistory floored = .ok first ∧
    ∀ calls, ((Session.ofProblem floored 0).after calls).tableaux.length ≤ 2 := by
  obtain ⟨first, framed, checked⟩ := exists_ok (Session.firstHistory floored)
    (fun h : History Rat => h.choices == 2) (by decide +kernel)
  refine ⟨first, framed, fun calls => ?_⟩
  rw [← beq_iff_eq.mp checked]
  exact ((never_cycles le_rfl framed).1 calls _ rfl).2.2.2

end Simplex
