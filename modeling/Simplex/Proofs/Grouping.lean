import Simplex.Proofs.Merging

/-!
Merging as grouping. The terms of one name are a group, whose coefficients are added up from the left,
begun with the first of them. A merged expression has one term for each group whose sum is not zero,
in the order in which the names appear first (`merge_groups`).
-/
namespace Simplex.Expression

variable {α : Type} [Scalar α] {e : Expression α} {t : Term α} {n : String}

/-! ### Groups -/

/-- The term that the terms of a name add up to; nothing if the name has none. -/
def group? (e : Expression α) (n : String) : Option (Term α) :=
  match e.filter fun t => t.name = n with
  | [] => none
  | first :: later => some (later.foldl Term.add first)

/-- The coefficients of a name, added up from the left and begun with the first one; nothing if the
    name has none. -/
def total? (e : Expression α) (n : String) : Option α :=
  match (e.filter fun t => t.name = n).map Term.coefficient with
  | [] => none
  | first :: later => some (later.foldl (· + ·) first)

theorem coefficient_foldl_add (first : Term α) (later : Expression α) :
    (later.foldl Term.add first).coefficient =
      (later.map Term.coefficient).foldl (· + ·) first.coefficient := by
  induction later generalizing first with
  | nil => rfl
  | cons t later ih => rw [List.foldl_cons, ih]; rfl

/-- The coefficient of a group is the total of its name. -/
theorem coefficient_group? (e : Expression α) (n : String) :
    (e.group? n).map Term.coefficient = e.total? n := by
  unfold group? total?
  cases e.filter fun t => t.name = n with
  | nil => rfl
  | cons first later => exact congrArg some (coefficient_foldl_add first later)

/-! ### What is absorbed under a name -/

/-- A term changes what stands under its own name, and nothing else. -/
theorem find?_absorb (e : Expression α) (t : Term α) (n : String) :
    (absorb e t).find? (fun s => s.name = n) =
      if t.name = n then some ((e.find? fun s => s.name = n).elim t fun s => s.add t)
      else e.find? fun s => s.name = n := by
  induction e with
  | nil => by_cases own : t.name = n <;> simp [absorb, own]
  | cons s rest ih =>
    rw [absorb]
    by_cases same : s.name = t.name
    · have name : (s.add t).name = s.name := rfl
      by_cases own : t.name = n <;> simp [same, own, name]
    · rw [if_neg same]
      by_cases held : s.name = n
      · have other : t.name ≠ n := fun own => same (held.trans own.symm)
        simp [held, other]
      · simp [held, ih]

theorem find?_foldl_absorb (later e : Expression α) (n : String) :
    (later.foldl absorb e).find? (fun s => s.name = n) =
      (later.filter fun t => t.name = n).foldl
        (fun held t => some (held.elim t fun s => s.add t)) (e.find? fun s => s.name = n) := by
  induction later generalizing e with
  | nil => rfl
  | cons t later ih =>
    rw [List.foldl_cons, ih, find?_absorb]
    by_cases own : t.name = n <;> simp [own]

theorem foldl_some (first : Term α) (later : Expression α) :
    later.foldl (fun held t => some (held.elim t fun s => s.add t)) (some first) =
      some (later.foldl Term.add first) := by
  induction later generalizing first with
  | nil => rfl
  | cons t later ih => exact ih (first.add t)

/-- Once all terms are absorbed, the group of a name stands under it. -/
theorem find?_absorbed (e : Expression α) (n : String) :
    (e.foldl absorb []).find? (fun s => s.name = n) = e.group? n := by
  rw [find?_foldl_absorb, group?]
  cases e.filter fun t => t.name = n with
  | nil => rfl
  | cons first later => exact foldl_some first later

omit [Scalar α] in
theorem find?_of_nodup (nodup : (e.map Term.name).Nodup) (member : t ∈ e) :
    (e.find? fun s => s.name = t.name) = some t := by
  obtain ⟨u, found⟩ : ∃ u, (e.find? fun s => s.name = t.name) = some u :=
    Option.isSome_iff_exists.mp (List.find?_isSome.mpr ⟨t, member, by simp⟩)
  have name : u.name = t.name := by simpa using List.find?_some found
  rw [found, List.inj_on_of_nodup_map nodup (List.mem_of_find?_eq_some found) member name]

/-- A merged expression has the groups whose coefficient is not zero. -/
theorem mem_merge_iff : t ∈ e.merge ↔ e.group? t.name = some t ∧ (t.coefficient == 0) = false := by
  rw [merge, List.mem_filter, Bool.not_eq_true', ← find?_absorbed]
  refine and_congr_left fun _ => ⟨find?_of_nodup (nodup_names_foldl (e := []) List.nodup_nil e), ?_⟩
  exact List.mem_of_find?_eq_some

/-- A name is kept just if its total is not zero. -/
theorem mem_names_merge_iff :
    n ∈ e.merge.map Term.name ↔ ∃ x, e.total? n = some x ∧ (x == 0) = false := by
  rw [← coefficient_group?, List.mem_map]
  constructor
  · rintro ⟨t, member, rfl⟩
    obtain ⟨group, nonzero⟩ := mem_merge_iff.mp member
    exact ⟨t.coefficient, by rw [group, Option.map_some], nonzero⟩
  · rintro ⟨x, total, nonzero⟩
    obtain ⟨t, group, rfl⟩ := Option.map_eq_some_iff.mp total
    have name : t.name = n := by
      rw [← find?_absorbed] at group
      simpa using List.find?_some group
    exact ⟨t, mem_merge_iff.mpr ⟨name ▸ group, nonzero⟩, name⟩

/-! ### Order -/

/-- The first name appears earlier in the expression than the second. -/
def AppearsBefore (e : Expression α) (m n : String) : Prop :=
  (e.map Term.name).idxOf m < (e.map Term.name).idxOf n

theorem mem_names_absorb : n ∈ (absorb e t).map Term.name ↔ n ∈ e.map Term.name ∨ n = t.name := by
  rw [names_absorb]
  split
  · rename_i known
    exact ⟨.inl, fun h => h.elim id fun own => own ▸ known⟩
  · rw [List.mem_append, List.mem_singleton]

theorem mem_names_foldl_absorb (later e : Expression α) :
    n ∈ (later.foldl absorb e).map Term.name ↔ n ∈ e.map Term.name ∨ n ∈ later.map Term.name := by
  induction later generalizing e with
  | nil => simp
  | cons t later ih => rw [List.foldl_cons, ih, mem_names_absorb, List.map_cons, List.mem_cons, or_assoc]

theorem mem_names_absorbed : n ∈ (e.foldl absorb []).map Term.name ↔ n ∈ e.map Term.name := by
  rw [mem_names_foldl_absorb]
  simp

/-- The names are absorbed in the order of their first appearance: a new one goes to the end, behind
    all that have appeared. -/
theorem pairwise_names_absorbed (e : Expression α) :
    ((e.foldl absorb []).map Term.name).Pairwise e.AppearsBefore := by
  induction e using List.reverseRecOn with
  | nil => exact List.Pairwise.nil
  | append_singleton e t ih =>
    have place {m : String} (known : m ∈ e.map Term.name) :
        ((e ++ [t]).map Term.name).idxOf m = (e.map Term.name).idxOf m := by
      rw [List.map_append, List.idxOf_append_of_mem known]
    have earlier : ((e.foldl absorb []).map Term.name).Pairwise (AppearsBefore (e ++ [t])) := by
      refine ih.imp_of_mem fun {m n} hm hn before => ?_
      rw [AppearsBefore, place (mem_names_absorbed.mp hm), place (mem_names_absorbed.mp hn)]
      exact before
    rw [List.foldl_append, List.foldl_cons, List.foldl_nil, names_absorb]
    split
    · exact earlier
    · rename_i fresh
      refine List.pairwise_append.mpr ⟨earlier, List.pairwise_singleton _ _, fun m hm n hn => ?_⟩
      obtain rfl := List.mem_singleton.mp hn
      have known := mem_names_absorbed.mp hm
      have last : t.name ∉ e.map Term.name := fun member => fresh (mem_names_absorbed.mpr member)
      have behind : (e.map Term.name).length ≤ ((e ++ [t]).map Term.name).idxOf t.name := by
        rw [List.map_append, List.idxOf_append_of_notMem last]
        exact Nat.le_add_right _ _
      rw [AppearsBefore, place known]
      exact (List.idxOf_lt_length_of_mem known).trans_le behind

/-! ### Merged expressions -/

/-- Merging again changes nothing. -/
theorem merge_merge (e : Expression α) : e.merge.merge = e.merge :=
  merge_of_nodup (nodup_names_merge e) fun _ => merge_nonzero

end Simplex.Expression

namespace Simplex

/-- Merging groups terms by their names. The names that are kept are distinct and in the order of
    their first appearance. A name is kept just if its coefficients, added up from the left and begun
    with the first, do not make zero; an undefined sum differs from zero. The term that is kept has
    that sum. A merged expression is not changed by merging it. -/
theorem merge_groups (e : Expression Float) :
    (e.merge.map Term.name).Nodup ∧
    (e.merge.map Term.name).Pairwise e.AppearsBefore ∧
    (∀ n, n ∈ e.merge.map Term.name ↔ ∃ x, e.total? n = some x ∧ (x == 0) = false) ∧
    (∀ t ∈ e.merge, e.total? t.name = some t.coefficient) ∧
    e.merge.merge = e.merge := by
  refine ⟨Expression.nodup_names_merge e, ?_, fun n => Expression.mem_names_merge_iff,
    fun t member => ?_, Expression.merge_merge e⟩
  · exact (Expression.pairwise_names_absorbed e).sublist (List.filter_sublist.map Term.name)
  · rw [← Expression.coefficient_group?, (Expression.mem_merge_iff.mp member).1, Option.map_some]

/-- A sum that is zero on the way, one that is zero at the end, one that becomes undefined, and one of
    negative zeros. -/
def cancelling : Expression Float :=
  [{ coefficient := 1, name := "y" }, { coefficient := 2, name := "x" },
    { coefficient := -1, name := "y" }, { coefficient := 1 / 0, name := "z" },
    { coefficient := -2, name := "x" }, { coefficient := 3, name := "y" },
    { coefficient := -1 / 0, name := "z" }, { coefficient := -0, name := "w" }]

theorem cancelling_groups : (cancelling.merge.map Term.name).Pairwise cancelling.AppearsBefore ∧
    cancelling.merge.map Term.name = ["y", "z"] ∧
    (∀ t ∈ cancelling.merge, cancelling.total? t.name = some t.coefficient) ∧
    cancelling.total? "y" = some 3 ∧ cancelling.total? "x" = some 0 := by
  obtain ⟨_, order, _, totals, _⟩ := merge_groups cancelling
  exact ⟨order, by decide +kernel, totals, by decide +kernel, by decide +kernel⟩

end Simplex
