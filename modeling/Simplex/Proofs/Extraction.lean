import Simplex.Solution
import Simplex.Proofs.Costs

/-!
The solution that is read off a tableau. An assignment of entries with distinct names gives each
name its own entry, so the solution of a canonical tableau rests off the basis, satisfies the
equations and has the tableau's value.
-/
namespace Simplex

namespace Assignment

variable {α : Type}

private theorem lookup_entry (n m : String) (v : α) (rest : List (String × α)) :
    ((m, v) :: rest).lookup n = if n = m then some v else rest.lookup n := by
  rw [List.lookup_cons]
  by_cases own : n = m
  · simp [own]
  · rw [beq_false_of_ne own, if_neg own]

theorem lookup_insertEntry (name : String) (value : α) (n : String) (entries : List (String × α)) :
    (insertEntry name value entries).lookup n =
      if n = name then some value else entries.lookup n := by
  induction entries with
  | nil => simp [insertEntry, lookup_entry]
  | cons entry rest ih =>
    obtain ⟨m, v⟩ := entry
    unfold insertEntry
    by_cases same : name = m
    · subst same
      by_cases own : n = name <;> simp [lookup_entry, own]
    · by_cases before : Text.Precedes name m
      · simp [lookup_entry, same, before]
      · rw [if_neg same, if_neg before, lookup_entry, ih, lookup_entry]
        by_cases own : n = name
        · simp [own, same]
        · simp [own]

private theorem lookup_foldl {entries : List (String × α)}
    (distinct : (entries.map Prod.fst).Nodup) (sorted : List (String × α)) (n : String) :
    (entries.foldl (fun sorted (name, value) => insertEntry name value sorted) sorted).lookup n =
      (entries.lookup n).or (sorted.lookup n) := by
  induction entries generalizing sorted with
  | nil => rfl
  | cons entry rest ih =>
    obtain ⟨name, value⟩ := entry
    obtain ⟨fresh, distinct⟩ := List.nodup_cons.mp distinct
    rw [List.foldl_cons, ih distinct, lookup_insertEntry, lookup_entry]
    by_cases own : n = name
    · subst own
      have absent : rest.lookup n = none := by
        refine List.lookup_eq_none_iff.mpr fun p listed => ?_
        have other : n ≠ p.1 := by
          rintro rfl
          exact fresh (List.mem_map.mpr ⟨p, listed, rfl⟩)
        simpa using other
      simp [absent]
    · simp [own]

/-- Where no name has two entries, each name has the value of its entry. -/
theorem get?_ofList {entries : List (String × α)} (distinct : (entries.map Prod.fst).Nodup)
    (n : String) : (ofList entries).get? n = entries.lookup n := by
  unfold get? ofList
  rw [lookup_foldl distinct, List.lookup_nil, Option.or_none]

theorem lookup_of_mem {entries : List (String × α)} (distinct : (entries.map Prod.fst).Nodup)
    {n : String} {v : α} (member : (n, v) ∈ entries) : entries.lookup n = some v := by
  induction entries with
  | nil => cases member
  | cons entry rest ih =>
    obtain ⟨fresh, distinct⟩ := List.nodup_cons.mp distinct
    rcases List.mem_cons.mp member with rfl | later
    · exact List.lookup_cons_self
    · have other : n ≠ entry.1 := by
        rintro rfl
        exact fresh (List.mem_map.mpr ⟨_, later, rfl⟩)
      rw [List.lookup_cons, beq_false_of_ne other]
      exact ih distinct later

/-- A new name gets an entry of its own. -/
theorem insertEntry_perm {name : String} {entries : List (String × α)}
    (fresh : name ∉ entries.map Prod.fst) (value : α) :
    (insertEntry name value entries).Perm ((name, value) :: entries) := by
  induction entries with
  | nil => exact .refl _
  | cons entry rest ih =>
    obtain ⟨n, v⟩ := entry
    obtain ⟨other, later⟩ := List.ne_and_not_mem_of_not_mem_cons fresh
    unfold insertEntry
    rw [if_neg other]
    split
    · exact .refl _
    · exact ((ih later).cons _).trans (.swap _ _ _)

private theorem foldl_perm {entries sorted : List (String × α)}
    (distinct : ((entries ++ sorted).map Prod.fst).Nodup) :
    (entries.foldl (fun sorted (name, value) => insertEntry name value sorted) sorted).Perm
      (entries ++ sorted) := by
  induction entries generalizing sorted with
  | nil => exact .refl _
  | cons entry rest ih =>
    obtain ⟨name, value⟩ := entry
    have moved : (rest ++ (name, value) :: sorted).Perm ((name, value) :: (rest ++ sorted)) :=
      List.perm_middle
    have fresh : name ∉ sorted.map Prod.fst := fun known =>
      (List.nodup_cons.mp distinct).1 (List.map_subset _ (List.subset_append_right _ _) known)
    have inserted := (insertEntry_perm fresh value).append_left rest
    have distinct' : ((rest ++ insertEntry name value sorted).map Prod.fst).Nodup :=
      ((inserted.trans moved).map _).nodup_iff.mpr distinct
    exact (ih distinct').trans (inserted.trans moved)

/-- Where no name has two entries, none is lost. -/
theorem ofList_perm {entries : List (String × α)} (distinct : (entries.map Prod.fst).Nodup) :
    (ofList entries).entries.Perm entries := by
  have listed : (ofList entries).entries.Perm (entries ++ []) :=
    foldl_perm (by rwa [List.append_nil])
  rwa [List.append_nil] at listed

end Assignment

namespace Tableau.Fits

variable {α : Type} [Scalar α] {form : StandardForm α} {t : Tableau α} (h : t.Fits form)
variable (distinct : ∀ r ∈ t.rows, ∀ o ∈ t.rows, o.basis = r.basis → o = r)
include h distinct

/-- The solution has an entry for each row and no other. -/
theorem entries_solution_perm : (Solution.ofTableau form t).assignment.entries.Perm
    (t.rows.map fun r => (r.basisVariable, r.rhs)) :=
  Assignment.ofList_perm (h.basisVariables_nodup distinct)

/-- The solution gives the basis variable of a row the row's right-hand side. -/
theorem get?_solution {r : Row α} (member : r ∈ t.rows) :
    (Solution.ofTableau form t).assignment.get? r.basisVariable = some r.rhs := by
  have listed : (r.basisVariable, r.rhs) ∈ t.rows.map fun r => (r.basisVariable, r.rhs) :=
    List.mem_map_of_mem member
  have names := h.basisVariables_nodup distinct
  exact (Assignment.get?_ofList names _).trans (Assignment.lookup_of_mem names listed)

end Tableau.Fits

namespace Tableau.Canonical

variable {form : StandardForm Rat} {t : Tableau Rat} (h : t.Canonical form)
include h

theorem basisVariables_nodup :
    ((t.rows.map fun r => (r.basisVariable, r.rhs)).map Prod.fst).Nodup :=
  h.toFits.basisVariables_nodup fun _ member _ other same =>
    h.standing.basis_inj member other same

/-- The solution gives the basis of a row the row's right-hand side. -/
theorem value_basis {r : Row Rat} (member : r ∈ t.rows) :
    (Solution.ofTableau form t).value (form.symbols.name r.basis) = r.rhs := by
  have entry := h.toFits.get?_solution
    (fun _ row _ other same => h.standing.basis_inj row other same) member
  rw [h.basisVariable r member] at entry
  rw [Solution.value, Assignment.value, entry, Option.getD_some]

theorem rests_solution :
    t.Rests fun s => (Solution.ofTableau form t).value (form.symbols.name s) := by
  intro s member outside
  have absent : (t.rows.map fun r => (r.basisVariable, r.rhs)).lookup (form.symbols.name s) =
      none := by
    refine List.lookup_eq_none_iff.mpr (List.forall_mem_map.mpr fun r row => ?_)
    have other : form.symbols.name s ≠ r.basisVariable := by
      intro same
      rw [h.basisVariable r row] at same
      refine outside r row ?_
      exact form.symbols.name_injOn (h.basis r row) (h.columns ▸ member) same.symm
    simpa using other
  simp only [Solution.value, Assignment.value, Solution.ofTableau]
  rw [Assignment.get?_ofList h.basisVariables_nodup, absent, Option.getD_none]

theorem satisfied_solution : form.Satisfied (Solution.ofTableau form t).value := by
  refine (h.equivalent _).mp ((h.standing.satisfied_iff h.rests_solution).mpr fun r member => ?_)
  exact h.value_basis member

variable {p : Problem Rat}

theorem objective_solution (represents : form.Represents p) :
    form.objective.value (Solution.ofTableau form t).value = t.objectiveValue := by
  rw [h.objective_eq represents h.satisfied_solution,
    h.standing.sum_price_eq_zero h.rests_solution, sub_zero]

/-- The solution reports the tableau's value in the direction of the problem. -/
theorem objectiveValue_solution (represents : form.Represents p) :
    (Solution.ofTableau form t).objectiveValue =
      (match p.direction with
        | .maximize => t.objectiveValue
        | .minimize => -t.objectiveValue) + p.objectiveConstant := by
  have raw : Solution.evaluate form.objective (Solution.ofTableau form t).assignment =
      t.objectiveValue := by
    rw [← h.objective_solution represents, Solution.evaluate, Scalar.sum_eq]
    rfl
  rw [← represents.direction, ← represents.objectiveConstant, ← raw]
  rfl

/-- The solution is allowed by the problem just if no right-hand side is negative. -/
theorem feasible_solution_iff (represents : form.Represents p) (bounds : p.BoundsOnly) :
    p.Feasible (Solution.ofTableau form t).value ↔ ∀ r ∈ t.rows, 0 ≤ r.rhs := by
  rw [represents.feasible_iff bounds h.satisfied_solution]
  constructor
  · intro nonneg r member
    rw [← h.value_basis member]
    exact nonneg _ (form.symbols.name_mem (h.basis r member))
  · intro nonneg n known
    obtain ⟨s, column, rfl⟩ := form.symbols.exists_symbol known
    by_cases basic : ∃ r ∈ t.rows, r.basis = s
    · obtain ⟨r, member, rfl⟩ := basic
      rw [h.value_basis member]
      exact nonneg r member
    · exact (h.rests_solution s (h.columns ▸ column) fun r member same =>
        basic ⟨r, member, same⟩).ge

end Tableau.Canonical

end Simplex
