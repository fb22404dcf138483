import Simplex.Proofs.Extraction
import Simplex.Proofs.Histories

/-!
Tableaux and the standard form. Pivots keep the solutions of the equations, so every tableau of a
history has just the solutions of the standard form. The basic point that is read off a tableau is
one of them: there each slack is the residual of its constraint and each equality holds.
-/
namespace Simplex

namespace StandardForm

/-- Values of the columns as values of their names; other names have the value zero. -/
def named (form : StandardForm Rat) (y : Symbol → Rat) (n : String) : Rat :=
  ((form.symbols.symbol? n).map y).getD 0

theorem named_name {form : StandardForm Rat} {s : Symbol} (member : s ∈ form.symbols.symbols)
    (y : Symbol → Rat) : form.named y (form.symbols.name s) = y s := by
  simp [named, form.symbols.symbol?_name member]

/-- The equation accounts for its constraint at a point: a slack is the residual of its inequality,
    and without a slack there is an equality, which holds. -/
def Accounts (w : String → Rat) (c : Constraint Rat) (e : StandardConstraint Rat) : Prop :=
  match e.slack with
  | some n => c.relation ≠ .eq ∧ w n = c.slackAt w
  | none => c.relation = .eq ∧ c.lhs.value w = c.rhs

theorem States.accounts {letter : Char} {c : Constraint Rat} {e : StandardConstraint Rat}
    (h : States letter c e) {w : String → Rat} (holds : e.lhs.value w = e.rhs) :
    Accounts w c e := by
  unfold Accounts
  cases slack : e.slack with
  | some n =>
    refine ⟨fun equality => ?_, ?_⟩
    · rw [h.slack_eq_none_iff.mpr equality] at slack
      cases slack
    · have sides := h.value_sub_rhs slack w
      linarith
  | none =>
    have equality := h.slack_eq_none_iff.mp slack
    refine ⟨equality, ?_⟩
    have allowed := (h.allows_iff_of_none slack w).mpr holds
    rwa [Constraint.Allows, equality] at allowed

theorem accounts_of_satisfied {letter : Char} {cs : List (Constraint Rat)}
    {es : List (StandardConstraint Rat)} (related : List.Forall₂ (States letter) cs es)
    {w : String → Rat} (holds : ∀ e ∈ es, e.lhs.value w = e.rhs) :
    List.Forall₂ (Accounts w) cs es := by
  induction related with
  | nil => exact .nil
  | cons states _ ih =>
    obtain ⟨own, later⟩ := List.forall_mem_cons.mp holds
    exact .cons (states.accounts own) (ih later)

end StandardForm

namespace Tableau

theorem satisfied_congr {t : Tableau Rat} {y z : Symbol → Rat} (agree : ∀ s ∈ t.columns, y s = z s) :
    t.Satisfied y ↔ t.Satisfied z := by
  unfold Satisfied Row.dot
  refine forall₂_congr fun r _ => ?_
  rw [List.map_congr_left fun s column => by rw [agree s column]]

theorem Canonical.satisfied_iff_named {form : StandardForm Rat} {t : Tableau Rat}
    (h : t.Canonical form) (y : Symbol → Rat) : t.Satisfied y ↔ form.Satisfied (form.named y) := by
  rw [← h.equivalent]
  refine satisfied_congr fun s column => ?_
  exact (StandardForm.named_name (h.columns ▸ column) y).symm

end Tableau

variable {p : Problem Rat} {tolerance : Rat}

theorem Session.Lawful.canonical {s : Session Rat} (lawful : s.Lawful p tolerance)
    (nonneg : 0 ≤ tolerance) {first : History Rat} (framed : Session.firstHistory p = .ok first)
    {t : Tableau Rat} (member : t ∈ s.tableaux) : t.Canonical first.form := by
  obtain ⟨k, found⟩ := List.mem_iff_getElem?.mp member
  obtain ⟨plain, reached, same⟩ := lawful.reached_of_getElem? framed found
  have represents := StandardForm.represents_of_ofProblem (Session.firstHistory_ok framed).1
  exact (reached.canonical represents nonneg).of_bare same.symm

/-- Every tableau of every session has the solutions of the standard form. The point that is read off
    it, which is zero outside of the basis, is one: it accounts for every constraint, where a
    constant on a left side counts as a column of its own. -/
theorem tableaux_equivalent (nonneg : 0 ≤ tolerance) {first : History Rat}
    (framed : Session.firstHistory p = .ok first) :
    ∀ calls, ∀ t ∈ ((Session.ofProblem p tolerance).after calls).tableaux,
      t.columns = first.form.symbols.symbols ∧
      (∀ y, t.Satisfied y ↔ first.form.Satisfied (first.form.named y)) ∧
      ∀ w, w = (Solution.ofTableau first.form t).value →
        (∀ r ∈ t.rows, w r.basisVariable = r.rhs) ∧
        (∀ s ∈ t.columns, (∀ r ∈ t.rows, r.basis ≠ s) → w (first.form.symbols.name s) = 0) ∧
        first.form.Satisfied w ∧
        List.Forall₂ (StandardForm.Accounts w) p.constraints first.form.constraints := by
  intro calls t member
  have lawful : ((Session.ofProblem p tolerance).after calls).Lawful p tolerance :=
    Session.Lawful.ofProblem.after calls
  have canonical := lawful.canonical nonneg framed member
  have represents := StandardForm.represents_of_ofProblem (Session.firstHistory_ok framed).1
  refine ⟨canonical.columns, canonical.satisfied_iff_named, ?_⟩
  rintro w rfl
  have satisfied := canonical.satisfied_solution
  refine ⟨fun r row => ?_, canonical.rests_solution, satisfied,
    StandardForm.accounts_of_satisfied represents.states satisfied⟩
  rw [canonical.basisVariable r row]
  exact canonical.value_basis row

/-- Maximize twice `x` and three times `y` under an upper bound, a lower bound and an equality. -/
def blended : Problem Rat where
  direction := .maximize
  objective := [{ coefficient := 2, name := "x" }, { coefficient := 3, name := "y" }]
  objectiveConstant := 0
  constraints := [⟨[{ coefficient := 1, name := "x" }, { coefficient := 1, name := "y" }], .le, 4⟩,
    ⟨[{ coefficient := 1, name := "x" }, { coefficient := -3, name := "y" }], .ge, -6⟩,
    ⟨[{ coefficient := 1, name := "z" }, { coefficient := 1, name := "x" }], .eq, 5⟩]

theorem blended_equivalent : ∃ first, Session.firstHistory blended = .ok first ∧
    ((Session.ofProblem blended 0).after [.frame, .run 5]).tableaux.length = 3 ∧
    ∀ t ∈ ((Session.ofProblem blended 0).after [.frame, .run 5]).tableaux,
      first.form.Satisfied (Solution.ofTableau first.form t).value := by
  obtain ⟨first, framed, _⟩ := exists_ok (Session.firstHistory blended) (fun _ => true)
    (by decide +kernel)
  refine ⟨first, framed, by decide +kernel, fun t member => ?_⟩
  exact ((tableaux_equivalent le_rfl framed _ t member).2.2 _ rfl).2.2.1

end Simplex
