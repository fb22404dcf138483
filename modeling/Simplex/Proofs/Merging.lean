import Simplex.Comparison
import Simplex.Proofs.Columns

/-!
Merging by name. Absorbing a term adds it to the one of its name, so the names stay distinct and in
order of first appearance, what every term and every sum of terms has is kept, and an expression with
distinct names and no zeros is not changed by merging it. On the rationals its value is not changed.
-/
namespace Simplex.Expression

variable {α : Type} [Scalar α] {e : Expression α} {t : Term α}

/-! ### One term -/

theorem absorb_of_fresh (fresh : t.name ∉ e.map Term.name) : absorb e t = e ++ [t] := by
  induction e with
  | nil => rfl
  | cons s rest ih =>
    rw [List.map_cons, List.mem_cons, not_or] at fresh
    rw [absorb, if_neg (Ne.symm fresh.1), ih fresh.2, List.cons_append]

theorem names_absorb_of_mem (known : t.name ∈ e.map Term.name) :
    (absorb e t).map Term.name = e.map Term.name := by
  induction e with
  | nil => cases known
  | cons s rest ih =>
    rw [absorb]
    split
    · rfl
    · rename_i differ
      rw [List.map_cons, List.map_cons, ih]
      exact (List.mem_cons.mp known).resolve_left (Ne.symm differ)

/-- A name that is new goes to the end. -/
theorem names_absorb (e : Expression α) (t : Term α) : (absorb e t).map Term.name =
    if t.name ∈ e.map Term.name then e.map Term.name else e.map Term.name ++ [t.name] := by
  split
  · rename_i known
    exact names_absorb_of_mem known
  · rename_i fresh
    rw [absorb_of_fresh fresh, List.map_append]
    rfl

theorem nodup_names_absorb (nodup : (e.map Term.name).Nodup) (t : Term α) :
    ((absorb e t).map Term.name).Nodup := by
  rw [names_absorb]
  split
  · exact nodup
  · rename_i fresh
    rw [← List.concat_eq_append]
    exact nodup.concat fresh

/-- What holds of the terms and of the sums of terms of one name is kept. -/
theorem forall_absorb {P : Term α → Prop} (sum : ∀ s t, P s → P t → s.name = t.name → P (s.add t))
    (all : ∀ s ∈ e, P s) (own : P t) : ∀ s ∈ absorb e t, P s := by
  induction e with
  | nil => simpa [absorb] using own
  | cons s rest ih =>
    rw [List.forall_mem_cons] at all
    rw [absorb]
    split
    · rename_i same
      exact List.forall_mem_cons.mpr ⟨sum s t all.1 own same, all.2⟩
    · exact List.forall_mem_cons.mpr ⟨all.1, ih all.2⟩

/-! ### All terms -/

theorem nodup_names_foldl (nodup : (e.map Term.name).Nodup) (later : Expression α) :
    ((later.foldl absorb e).map Term.name).Nodup := by
  induction later generalizing e with
  | nil => exact nodup
  | cons t later ih => exact ih (nodup_names_absorb nodup t)

theorem names_foldl_sublist (e later : Expression α) :
    ((later.foldl absorb e).map Term.name).Sublist (e.map Term.name ++ later.map Term.name) := by
  induction later generalizing e with
  | nil => simp
  | cons t later ih =>
    refine (ih (absorb e t)).trans ?_
    rw [names_absorb, List.map_cons]
    split
    · exact (List.sublist_cons_self _ _).append_left _
    · rw [List.append_assoc]
      exact List.Sublist.refl _

theorem forall_foldl_absorb {P : Term α → Prop}
    (sum : ∀ s t, P s → P t → s.name = t.name → P (s.add t)) {later : Expression α}
    (all : ∀ s ∈ e, P s) (others : ∀ s ∈ later, P s) : ∀ s ∈ later.foldl absorb e, P s := by
  induction later generalizing e with
  | nil => exact all
  | cons t later ih =>
    rw [List.forall_mem_cons] at others
    exact ih (forall_absorb sum all others.1) others.2

theorem foldl_absorb_of_nodup {later : Expression α}
    (nodup : (e.map Term.name ++ later.map Term.name).Nodup) :
    later.foldl absorb e = e ++ later := by
  induction later generalizing e with
  | nil => simp
  | cons t later ih =>
    have fresh : t.name ∉ e.map Term.name := fun known =>
      List.disjoint_of_nodup_append nodup known List.mem_cons_self
    rw [List.foldl_cons, absorb_of_fresh fresh, ih]
    · simp
    · simpa using nodup

/-! ### Merged expressions -/

/-- The names of a merged expression are distinct. -/
theorem nodup_names_merge (e : Expression α) : (e.merge.map Term.name).Nodup :=
  (List.filter_sublist.map Term.name).nodup (nodup_names_foldl (e := []) List.nodup_nil e)

/-- The names of a merged expression are names that were there, in their order. -/
theorem names_merge_sublist (e : Expression α) :
    (e.merge.map Term.name).Sublist (e.map Term.name) :=
  (List.filter_sublist.map Term.name).trans (names_foldl_sublist [] e)

/-- No coefficient of a merged expression is zero. -/
theorem merge_nonzero (member : t ∈ e.merge) : (t.coefficient == 0) = false := by
  simpa using (List.mem_filter.mp member).2

theorem forall_merge {P : Term α → Prop}
    (sum : ∀ s t, P s → P t → s.name = t.name → P (s.add t)) (all : ∀ s ∈ e, P s) :
    ∀ s ∈ e.merge, P s := fun s member =>
  forall_foldl_absorb sum (by simp) all s (List.mem_filter.mp member).1

/-- An expression with distinct names and no zeros is merged. -/
theorem merge_of_nodup (nodup : (e.map Term.name).Nodup)
    (nonzero : ∀ t ∈ e, (t.coefficient == 0) = false) : e.merge = e := by
  have whole : e.foldl absorb [] = e := foldl_absorb_of_nodup nodup
  rw [merge, whole, List.filter_eq_self]
  intro t member
  rw [nonzero t member]
  rfl

/-- The terms have distinct variables, and none of them is a constant or zero. -/
structure Merged (e : Expression α) : Prop where
  distinct : (e.map Term.name).Nodup
  named : ∀ t ∈ e, t.name ≠ ""
  nonzero : ∀ t ∈ e, (t.coefficient == 0) = false

theorem merged_merge (named : ∀ t ∈ e, t.name ≠ "") : e.merge.Merged where
  distinct := nodup_names_merge e
  named := forall_merge (fun _ _ own _ _ => own) named
  nonzero := fun _ => merge_nonzero

omit [Scalar α] in
theorem name_ne_of_mem (member : t ∈ e.variableTerms) : t.name ≠ "" := by
  rintro none
  have own := (List.mem_filter.mp member).2
  rw [Term.isConstant, none] at own
  cases own

/-- The left side of a normal form is merged. -/
theorem merged_normalize (c : Comparison α) : c.normalize.lhs.Merged := by
  refine merged_merge fun t member => ?_
  rcases List.mem_append.mp member with own | negated
  · exact name_ne_of_mem own
  · obtain ⟨u, own, rfl⟩ := List.mem_map.mp negated
    exact name_ne_of_mem (t := u) own

/-! ### Values -/

variable {v : String → Rat}

theorem value_absorb (e : Expression Rat) (t : Term Rat) :
    (absorb e t).value v = e.value v + t.coefficient * v t.name := by
  induction e with
  | nil => simp [absorb]
  | cons s rest ih =>
    rw [absorb]
    split
    · rename_i same
      rw [value_cons, value_cons]
      show (s.coefficient + t.coefficient) * v s.name + _ = _
      rw [← same]
      ring
    · rw [value_cons, value_cons, ih]
      ring

theorem value_foldl_absorb (e later : Expression Rat) :
    (later.foldl absorb e).value v = e.value v + later.value v := by
  induction later generalizing e with
  | nil => simp
  | cons t later ih =>
    rw [List.foldl_cons, ih, value_absorb, value_cons]
    ring

theorem value_filter_nonzero (e : Expression Rat) :
    value (e.filter fun t => !(t.coefficient == 0)) v = e.value v := by
  induction e with
  | nil => rfl
  | cons t rest ih =>
    rw [List.filter_cons]
    split
    · rw [value_cons, value_cons, ih]
    · rename_i zero
      have none : t.coefficient = 0 := by simpa using zero
      rw [value_cons, ih, none, zero_mul, zero_add]

/-- Merging changes no value. -/
theorem value_merge (e : Expression Rat) : e.merge.value v = e.value v := by
  rw [merge, value_filter_nonzero, value_foldl_absorb, value_nil, zero_add]

end Simplex.Expression
