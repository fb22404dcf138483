import Simplex.Proofs.Columns
import Mathlib.Data.Finset.Card
import Mathlib.Data.List.GetD
import Mathlib.Tactic.Tauto

/-!
Looking names up. A table is determined by which names it is made of; its symbols stand for its names
one to one and in their order. Since the names ascend, a search by halving finds the same symbol as
one from the front. A dense row has for each symbol the sum of the coefficients of its name, and
nothing else of the expression (`symbols_follow_names`).
-/
namespace Simplex

namespace SymbolTable

variable {t : SymbolTable} {s u : Symbol} {n : String}

/-! ### The table of a list -/

/-- Lists with the same names have the same table, whatever their order and repetitions. -/
theorem ofNames_eq_iff {xs ys : List String} :
    ofNames xs = ofNames ys ↔ ∀ n, n ∈ xs ↔ n ∈ ys := by
  constructor
  · intro same n
    rw [← mem_ofNames, same, mem_ofNames]
  · intro same
    have names : Text.sortNames xs = Text.sortNames ys := Text.sortNames_congr same
    simp only [ofNames, names]

theorem size_ofNames (xs : List String) : (ofNames xs).size = xs.toFinset.card := by
  have same : (ofNames xs).names.toFinset = xs.toFinset := by
    ext n
    rw [List.mem_toFinset, List.mem_toFinset, mem_ofNames]
  rw [← same, List.toFinset_card_of_nodup (ofNames xs).names_nodup]
  rfl

theorem isSome_symbol?_iff : (t.symbol? n).isSome = true ↔ n ∈ t.names := by
  rw [symbol?, Option.isSome_map, List.isSome_idxOf?]

/-- The symbols are in the order of the names. -/
theorem precedes_name_iff (hs : s ∈ t.symbols) (hu : u ∈ t.symbols) :
    Text.Precedes (t.name s) (t.name u) ↔ s.index < u.index := by
  have ascends {a b : Symbol} (ha : a ∈ t.symbols) (hb : b ∈ t.symbols)
      (before : a.index < b.index) :
      Text.Precedes (t.name a) (t.name b) := by
    have inside := t.mem_symbols.mp ha
    have inside' := t.mem_symbols.mp hb
    rw [t.name_eq_getElem inside, t.name_eq_getElem inside']
    exact List.pairwise_iff_getElem.mp t.ascending _ _ inside inside' before
  constructor
  · intro before
    rcases Nat.lt_trichotomy s.index u.index with less | same | greater
    · exact less
    · have equal : s = u := by cases s; cases u; exact congrArg Symbol.mk same
      exact absurd before (equal ▸ Text.precedes_irrefl _)
    · exact absurd (before.trans (ascends hu hs greater)) (Text.precedes_irrefl _)
  · exact ascends hs hu

/-! ### Search by halving -/

/-- Looks for a name among `count` symbols from `first` on. The name in the middle halves them: the
    search goes on before the middle if the name there comes later, and else from the middle on. A
    single symbol is compared. -/
def halve (t : SymbolTable) (n : String) (first count : Nat) : Option Symbol :=
  if 1 < count then
    if Text.Precedes n (t.name ⟨first + count / 2⟩) then t.halve n first (count - count / 2)
    else t.halve n (first + count / 2) (count - count / 2)
  else if t.names[first]? = some n then some ⟨first⟩
  else none
termination_by count

/-- Looks for a name by halving the whole table. -/
def search (t : SymbolTable) (n : String) : Option Symbol := t.halve n 0 t.size

/-- Halving finds the symbol of a name as long as it is not cut off. -/
theorem halve_eq {first count : Nat} (inside : first + count ≤ t.size)
    (kept : ∀ s, t.symbol? n = some s → first ≤ s.index ∧ s.index < first + count) :
    t.halve n first count = t.symbol? n := by
  fun_induction halve t n first count with
  | case1 first count several later ih =>
    refine ih (by omega) fun s found => ?_
    obtain ⟨above, _⟩ := kept s found
    obtain ⟨member, rfl⟩ := t.symbol?_eq_some_iff.mp found
    have middle : (⟨first + count / 2⟩ : Symbol) ∈ t.symbols :=
      t.mem_symbols.mpr (show first + count / 2 < t.size by omega)
    have before : s.index < first + count / 2 := (precedes_name_iff member middle).mp later
    omega
  | case2 first count several notLater ih =>
    refine ih (by omega) fun s found => ?_
    obtain ⟨_, below⟩ := kept s found
    obtain ⟨member, rfl⟩ := t.symbol?_eq_some_iff.mp found
    have middle : (⟨first + count / 2⟩ : Symbol) ∈ t.symbols :=
      t.mem_symbols.mpr (show first + count / 2 < t.size by omega)
    have behind : ¬ s.index < first + count / 2 := fun before =>
      notLater ((precedes_name_iff member middle).mpr before)
    omega
  | case3 first count single found =>
    obtain ⟨within, name⟩ := List.getElem?_eq_some_iff.mp found
    refine (t.symbol?_eq_some_iff.mpr ⟨t.mem_symbols.mpr within, ?_⟩).symm
    rw [t.name_eq_getElem within, name]
  | case4 first count single missing =>
    symm
    rw [Option.eq_none_iff_forall_not_mem]
    intro s found
    obtain ⟨above, below⟩ := kept s found
    obtain ⟨member, name⟩ := t.symbol?_eq_some_iff.mp found
    have within := t.mem_symbols.mp member
    have only : s.index = first := by omega
    rw [t.name_eq_getElem within] at name
    exact missing (only ▸ List.getElem?_eq_some_iff.mpr ⟨within, name⟩)

theorem search_eq_symbol? (t : SymbolTable) (n : String) : t.search n = t.symbol? n := by
  refine halve_eq (Nat.zero_add _).le fun s found => ⟨Nat.zero_le _, ?_⟩
  rw [Nat.zero_add]
  exact t.mem_symbols.mp (t.symbol?_eq_some_iff.mp found).1

/-! ### Dense rows -/

section Rows

variable {α : Type} [Scalar α]

/-- The coefficients of a name in an expression, added up from zero in the order of the terms. -/
def share (e : Expression α) (n : String) : α :=
  Scalar.accumulate ((e.filter fun u => u.name = n).map Term.coefficient)

/-- A dense row has the share of each name, in the order of the symbols. -/
theorem row_eq_map_share (t : SymbolTable) (e : Expression α) :
    t.row e = t.symbols.map fun s => share e (t.name s) := by
  apply List.ext_getElem
  · rw [length_row, List.length_map, length_symbols]
  · intro i inside bound
    have member : (⟨i⟩ : Symbol) ∈ t.symbols := t.mem_symbols.mpr (t.length_row e ▸ inside)
    have entry := t.getD_row member e
    rw [List.getD_eq_getElem _ _ inside] at entry
    rw [entry, List.getElem_map]
    simp [symbols, share]

/-- Terms whose names have no symbol leave a dense row as it is. -/
theorem row_filter_names (t : SymbolTable) (e : Expression α) :
    t.row (e.filter fun u => u.name ∈ t.names) = t.row e := by
  rw [row_eq_map_share, row_eq_map_share]
  refine List.map_congr_left fun s member => ?_
  rw [share, share, List.filter_filter]
  congr 2
  refine List.filter_congr fun u _ => ?_
  by_cases own : u.name = t.name s
  · simp [own, t.name_mem member]
  · simp [own]

end Rows

end SymbolTable

/-- Which names a list has determines its table. The table has a symbol for each of them and for no
    other name, whether it is looked up from the front or by halving; a name and its symbol lead back
    to each other, and names are ordered as their symbols are. In a dense row the entry of a name is
    the sum of its coefficients, added up from zero in the order of the terms, and terms with other
    names are passed over. -/
theorem symbols_follow_names (xs ys : List String) (e : Expression Float) :
    let t := SymbolTable.ofNames xs
    (t = SymbolTable.ofNames ys ↔ ∀ n, n ∈ xs ↔ n ∈ ys) ∧
    t.size = xs.toFinset.card ∧
    (∀ n, t.search n = t.symbol? n) ∧
    (∀ n, (t.symbol? n).isSome = true ↔ n ∈ xs) ∧
    (∀ n s, t.symbol? n = some s → s ∈ t.symbols ∧ t.name s = n) ∧
    (∀ s ∈ t.symbols, t.symbol? (t.name s) = some s) ∧
    (∀ m n s u, t.symbol? m = some s → t.symbol? n = some u →
      (Text.Precedes m n ↔ s.index < u.index)) ∧
    (t.row e).length = t.size ∧
    (∀ n s, t.symbol? n = some s → (t.row e)[s.index]? = some
      (Scalar.accumulate ((e.filter fun u => u.name = n).map Term.coefficient))) ∧
    t.row (e.filter fun u => u.name ∈ xs) = t.row e := by
  intro t
  have known (n : String) : n ∈ t.names ↔ n ∈ xs := SymbolTable.mem_ofNames
  refine ⟨SymbolTable.ofNames_eq_iff, SymbolTable.size_ofNames xs, t.search_eq_symbol?,
    fun n => SymbolTable.isSome_symbol?_iff.trans (known n), fun n s => t.symbol?_eq_some_iff.mp,
    fun s => t.symbol?_name, fun m n s u hm hn => ?_, t.length_row e, fun n s found => ?_, ?_⟩
  · obtain ⟨hs, rfl⟩ := t.symbol?_eq_some_iff.mp hm
    obtain ⟨hu, rfl⟩ := t.symbol?_eq_some_iff.mp hn
    exact SymbolTable.precedes_name_iff hs hu
  · obtain ⟨member, rfl⟩ := t.symbol?_eq_some_iff.mp found
    rw [t.row_eq_map_share, List.getElem?_map]
    have inside := t.mem_symbols.mp member
    simp [SymbolTable.symbols, inside, SymbolTable.share]
  · rw [← t.row_filter_names e]
    simp only [known]

/-- Names out of order and with a repetition: the empty one, one that is not ASCII, and two whose order
    by bytes is not that of their numbers. -/
def jumbled : List String := ["x2", "é", "x10", "", "x2", "Z"]

/-- Terms of one name that are rounded when they are added up, with a name between them that is not
    in the table. -/
def tenths : Expression Float :=
  [{ coefficient := 0.1, name := "x2" }, { coefficient := 7, name := "q" },
    { coefficient := 0.2, name := "x2" }, { coefficient := 0.3, name := "x2" }]

theorem jumbled_follow_names :
    SymbolTable.ofNames jumbled = SymbolTable.ofNames ["Z", "x10", "", "é", "x2"] ∧
    (SymbolTable.ofNames jumbled).size = 5 ∧
    (SymbolTable.ofNames jumbled).name ⟨2⟩ = "x10" ∧ Text.Precedes "x10" "x2" ∧
    ((SymbolTable.ofNames jumbled).row tenths)[3]? = some 0.6000000000000001 := by
  obtain ⟨same, size, _, _, back, _, order, _, entry, _⟩ :=
    symbols_follow_names jumbled ["Z", "x10", "", "é", "x2"] tenths
  have third : (SymbolTable.ofNames jumbled).symbol? "x10" = some ⟨2⟩ := by decide +kernel
  have fourth : (SymbolTable.ofNames jumbled).symbol? "x2" = some ⟨3⟩ := by decide +kernel
  refine ⟨same.mpr fun n => ?_, size.trans (by decide +kernel), (back _ _ third).2,
    (order _ _ _ _ third fourth).mpr (by decide), (entry _ _ fourth).trans (by decide +kernel)⟩
  simp only [jumbled, List.mem_cons, List.not_mem_nil, or_false]
  tauto

end Simplex
