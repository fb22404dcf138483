import Simplex.StandardForm
import Simplex.Proofs.Exact

/-!
Names and columns. A table assigns its columns to its names one to one, and the entry of a dense
row in the column of a name is the sum of the coefficients that the expression gives to the name.
-/
namespace Simplex

namespace Text

theorem Ascending.nodup {names : List String} (h : Ascending names) : names.Nodup := by
  refine List.Pairwise.imp ?_ h
  rintro a b before rfl
  exact precedes_irrefl a before

/-- Sorting keeps of a list no more than which names it has. -/
theorem sortNames_congr {names others : List String} (same : ∀ n, n ∈ names ↔ n ∈ others) :
    sortNames names = sortNames others := by
  have left := ascending_sortNames names
  have right := ascending_sortNames others
  have perm : (sortNames names).Perm (sortNames others) := by
    refine (List.perm_ext_iff_of_nodup left.nodup right.nodup).mpr fun n => ?_
    rw [mem_sortNames, mem_sortNames, same]
  refine perm.eq_of_pairwise ?_ left right
  intro a b _ _ before after
  exact absurd (before.trans after) (precedes_irrefl a)

end Text

/-- The value of an expression when every name has a value; a constant has the empty name. -/
def Expression.value (e : Expression Rat) (v : String → Rat) : Rat :=
  (e.map fun t => t.coefficient * v t.name).sum

namespace Expression

variable (v w : String → Rat)

@[simp] theorem value_nil : value [] v = 0 := rfl

@[simp] theorem value_cons (t : Term Rat) (e : Expression Rat) :
    value (t :: e) v = t.coefficient * v t.name + value e v := by
  simp [value]

@[simp] theorem value_append (d e : Expression Rat) : value (d ++ e) v = value d v + value e v := by
  simp [value]

theorem value_congr {v w : String → Rat} {e : Expression Rat}
    (agree : ∀ t ∈ e, v t.name = w t.name) : e.value v = e.value w := by
  unfold value
  congr 1
  apply List.map_congr_left
  intro t member
  rw [agree t member]

theorem value_negated (e : Expression Rat) : value (e.map Term.negated) v = -value e v := by
  induction e with
  | nil => simp
  | cons t rest ih =>
    rw [List.map_cons, value_cons, value_cons, ih]
    show -t.coefficient * v t.name + -value rest v = _
    ring

end Expression

namespace SymbolTable

variable (t : SymbolTable)

theorem names_nodup : t.names.Nodup := t.ascending.nodup

@[simp] theorem mem_ofNames {n : String} {names : List String} :
    n ∈ (ofNames names).names ↔ n ∈ names := Text.mem_sortNames

@[simp] theorem length_symbols : t.symbols.length = t.size := by simp [symbols]

@[simp] theorem mem_symbols {s : Symbol} : s ∈ t.symbols ↔ s.index < t.size := by
  simp only [symbols, List.mem_map, List.mem_range]
  constructor
  · rintro ⟨i, inside, rfl⟩; exact inside
  · intro inside; exact ⟨s.index, inside, rfl⟩

theorem symbols_nodup : t.symbols.Nodup := by
  refine List.Nodup.map ?_ List.nodup_range
  intro i j same
  exact congrArg Symbol.index same

theorem name_eq_getElem {s : Symbol} (inside : s.index < t.names.length) :
    t.name s = t.names[s.index] := by
  simp [name, inside]

/-- A name has the symbol at which the table holds it, and no other. -/
theorem symbol?_eq_some_iff {n : String} {s : Symbol} :
    t.symbol? n = some s ↔ s ∈ t.symbols ∧ t.name s = n := by
  simp only [symbol?, Option.map_eq_some_iff, List.idxOf?_eq_some_iff, mem_symbols, size]
  constructor
  · rintro ⟨i, ⟨inside, found, _⟩, rfl⟩
    exact ⟨inside, (t.name_eq_getElem inside).trans found⟩
  · rintro ⟨inside, named⟩
    have found : t.names[s.index] = n := (t.name_eq_getElem inside).symm.trans named
    refine ⟨s.index, ⟨inside, found, ?_⟩, rfl⟩
    intro j before same
    have := (List.Nodup.getElem_inj_iff t.names_nodup).mp (same.trans found.symm)
    omega

theorem symbol?_name {s : Symbol} (member : s ∈ t.symbols) : t.symbol? (t.name s) = some s :=
  t.symbol?_eq_some_iff.mpr ⟨member, rfl⟩

theorem name_mem {s : Symbol} (member : s ∈ t.symbols) : t.name s ∈ t.names := by
  have inside : s.index < t.names.length := t.mem_symbols.mp member
  rw [t.name_eq_getElem inside]
  exact List.getElem_mem inside

theorem exists_symbol {n : String} (member : n ∈ t.names) : ∃ s ∈ t.symbols, t.name s = n := by
  obtain ⟨i, inside, found⟩ := List.mem_iff_getElem.mp member
  exact ⟨⟨i⟩, t.mem_symbols.mpr inside, (t.name_eq_getElem inside).trans found⟩

theorem name_injOn {s u : Symbol} (hs : s ∈ t.symbols) (hu : u ∈ t.symbols)
    (same : t.name s = t.name u) : s = u := by
  have found := t.symbol?_name hs
  rw [same, t.symbol?_name hu] at found
  exact (Option.some.inj found).symm

theorem map_name_symbols : t.symbols.map t.name = t.names := by
  apply List.ext_getElem
  · simp [size]
  · intro i inside bound
    simp only [symbols, List.getElem_map, List.getElem_range]
    exact t.name_eq_getElem bound

section Rows

variable {α : Type} [Scalar α]

@[simp] theorem length_scatter (row : List α) (term : Term α) :
    (t.scatter row term).length = row.length := by
  unfold scatter
  cases t.symbol? term.name with
  | none => rfl
  | some s => exact List.length_modify _ _ _

theorem length_foldl_scatter (e : Expression α) (row : List α) :
    (e.foldl t.scatter row).length = row.length := by
  induction e generalizing row with
  | nil => rfl
  | cons term rest ih => rw [List.foldl_cons, ih, length_scatter]

@[simp] theorem length_row (e : Expression α) : (t.row e).length = t.size := by
  rw [row, length_foldl_scatter, List.length_replicate]

theorem getD_scatter {row : List α} {s : Symbol} (member : s ∈ t.symbols)
    (wide : row.length = t.size) (term : Term α) :
    (t.scatter row term).getD s.index 0 =
      if term.name = t.name s then row.getD s.index 0 + term.coefficient
      else row.getD s.index 0 := by
  have inside : s.index < row.length := wide ▸ t.mem_symbols.mp member
  by_cases same : term.name = t.name s
  · simp [scatter, same, t.symbol?_name member, inside]
  · rw [if_neg same]
    cases found : t.symbol? term.name with
    | none => simp [scatter, found]
    | some u =>
      have other : u.index ≠ s.index := by
        intro equal
        have us : u = s := by cases u; cases s; simp_all
        exact same (us ▸ (t.symbol?_eq_some_iff.mp found).2.symm)
      simp [scatter, found, List.getElem?_modify_ne _ _ other]

private theorem getD_foldl_scatter {s : Symbol} (member : s ∈ t.symbols) (e : Expression α)
    {row : List α} (wide : row.length = t.size) :
    (e.foldl t.scatter row).getD s.index 0 =
      ((e.filter fun u => u.name = t.name s).map Term.coefficient).foldl (· + ·)
        (row.getD s.index 0) := by
  induction e generalizing row with
  | nil => rfl
  | cons term rest ih =>
    rw [List.foldl_cons, ih ((t.length_scatter row term).trans wide), t.getD_scatter member wide]
    by_cases same : term.name = t.name s
    · simp [same]
    · simp [same]

/-- The entry of a dense row: the coefficients of the column's name, added up from zero in the
    order of the terms. -/
theorem getD_row {s : Symbol} (member : s ∈ t.symbols) (e : Expression α) :
    (t.row e).getD s.index 0 =
      Scalar.accumulate ((e.filter fun u => u.name = t.name s).map Term.coefficient) := by
  have inside : s.index < t.size := t.mem_symbols.mp member
  rw [row, t.getD_foldl_scatter member e List.length_replicate]
  simp [Scalar.accumulate, inside]

end Rows

private theorem sum_named_mul (v : String → Rat) (e : Expression Rat) (n : String) :
    ((e.filter fun u => u.name = n).map Term.coefficient).sum * v n =
      (e.map fun u => if u.name = n then u.coefficient * v u.name else 0).sum := by
  induction e with
  | nil => simp
  | cons u rest ih =>
    by_cases same : u.name = n
    · simp [same, add_mul, ih]
    · simp [same, ih]

/-- A dense row, weighted with the values of its columns, has the value of its expression. -/
theorem row_value (v : String → Rat) {e : Expression Rat} (known : ∀ u ∈ e, u.name ∈ t.names) :
    (t.symbols.map fun s => (t.row e).getD s.index 0 * v (t.name s)).sum = e.value v := by
  have entries : (t.symbols.map fun s => (t.row e).getD s.index 0 * v (t.name s)) =
      t.symbols.map fun s =>
        (e.map fun u => if u.name = t.name s then u.coefficient * v u.name else 0).sum := by
    apply List.map_congr_left
    intro s member
    rw [t.getD_row member, Scalar.accumulate_eq, sum_named_mul]
  rw [entries, ← sum_exchange]
  unfold Expression.value
  congr 1
  apply List.map_congr_left
  intro u listed
  obtain ⟨s, member, named⟩ := t.exists_symbol (known u listed)
  -- only the column of the term's own name sees the term
  rw [sum_single t.symbols_nodup member]
  · simp [named]
  · intro c listed other
    have : u.name ≠ t.name c := fun same =>
      other (t.name_injOn listed member (same.symm.trans named.symm))
    simp [this]

end SymbolTable

end Simplex
