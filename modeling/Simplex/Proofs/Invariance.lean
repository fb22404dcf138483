import Simplex.Proofs.Runs
import Simplex.Proofs.Slacks

/-!
What a solve depends on. A run reads no more of its standard form than the symbols, so two standard
forms with the same symbols and the same first tableau are solved through the same tableaux
(`solve_withForm`). Alike problems, which differ in how they write their rows, have such standard
forms (`solve_of_alike`).
-/
namespace Simplex

variable {α : Type}

/-! ### Runs over another standard form -/

/-- The same tableaux over another standard form. -/
def History.withForm (form : StandardForm α) (h : History α) : History α := { h with form := form }

/-- The same phase, its tableaux over another standard form. -/
def Phase.withForm (form : StandardForm α) : Phase α → Phase α
  | .building => .building
  | .iterating h => .iterating (h.withForm form)
  | .optimal h => .optimal (h.withForm form)
  | .unbounded h => .unbounded (h.withForm form)
  | .framingFailed => .framingFailed
  | .calculationFailed h => .calculationFailed (h.withForm form)

namespace Session

/-- The same session for another problem with its standard form. -/
def withForm (p : Problem α) (form : StandardForm α) (s : Session α) : Session α :=
  ⟨p, s.tolerance, s.phase.withForm form⟩

/-- While the session iterates, its standard form has these symbols. -/
def HasSymbols (symbols : SymbolTable) (s : Session α) : Prop :=
  ∀ h, s.phase = .iterating h → h.form.symbols = symbols

variable {p : Problem α} {form : StandardForm α} {s : Session α}

@[simp] theorem termination_withForm : (s.withForm p form).termination = s.termination := by
  obtain ⟨problem, tolerance, phase⟩ := s
  cases phase <;> rfl

@[simp] theorem tableaux_withForm : (s.withForm p form).tableaux = s.tableaux := by
  obtain ⟨problem, tolerance, phase⟩ := s
  cases phase <;> rfl

@[simp] theorem standardForm?_withForm :
    (s.withForm p form).standardForm? = s.standardForm?.map fun _ => form := by
  obtain ⟨problem, tolerance, phase⟩ := s
  cases phase <;> rfl

end Session

variable [Scalar α]

/-- The report of the same tableaux over another standard form. -/
def Report.withForm (form : StandardForm α) (r : Report α) : Report α :=
  { r with
    standardForm := form
    solution := r.solution.bind fun _ => r.tableaux.getLast?.map (Solution.ofTableau form) }

theorem History.advance_withForm {h : History α} {form : StandardForm α}
    (same : h.form.symbols = form.symbols) (tolerance : α) :
    (h.withForm form).advance tolerance =
      ((h.advance tolerance).1.withForm form, (h.advance tolerance).2) := by
  unfold advance withForm
  simp only [← same]
  cases h.latest.evaluate.selectPivot tolerance with
  | mk current choice =>
    cases choice with
    | error e => rfl
    | ok choice =>
      cases choice with
      | optimal | unbounded => rfl
      | pivot p =>
        simp only
        cases current.pivoted h.form.symbols with
        | error e => rfl
        | ok next =>
          simp only
          split
          · rfl
          · cases next.unitBasisViolation? tolerance <;> rfl

theorem History.form_advance (h : History α) (tolerance : α) :
    (h.advance tolerance).1.form = h.form := by
  cases advanced : h.advance tolerance with
  | mk next result =>
    obtain ⟨u, choice, _, made⟩ := advance_ok advanced
    cases result with
    | error e => obtain rfl := made; rfl
    | ok step =>
      cases step with
      | optimal | unbounded => obtain ⟨_, rfl⟩ := made; rfl
      | pivoted iteration => obtain ⟨_, _, _, _, _, _, _, rfl⟩ := made; rfl

namespace Session

variable {p q : Problem α} {form other : StandardForm α} {s : Session α}

theorem HasSymbols.step {symbols : SymbolTable} (h : s.HasSymbols symbols) :
    s.step.1.HasSymbols symbols := by
  obtain ⟨problem, tolerance, phase⟩ := s
  cases phase with
  | building | optimal | unbounded | framingFailed | calculationFailed => exact h
  | iterating history =>
    have kept := history.form_advance tolerance
    intro next phase
    simp only [Session.step] at phase
    cases advanced : history.advance tolerance with
    | mk made result =>
      rw [advanced] at phase kept
      cases result with
      | error e => cases phase
      | ok step =>
        cases step with
        | optimal | unbounded => cases phase
        | pivoted iteration =>
          cases phase
          rw [kept]
          exact h history rfl

theorem step_withForm (symbols : s.HasSymbols form.symbols) :
    (s.withForm p form).step = (s.step.1.withForm p form, s.step.2) := by
  obtain ⟨problem, tolerance, phase⟩ := s
  cases phase with
  | building | optimal | unbounded | framingFailed | calculationFailed => rfl
  | iterating h =>
    have same := History.advance_withForm (symbols h rfl) tolerance
    simp only [step, withForm, Phase.withForm, same]
    cases h.advance tolerance with
    | mk made result =>
      cases result with
      | error e => rfl
      | ok step => cases step <;> rfl

theorem needsPivot_withForm : (s.withForm p form).needsPivot = s.needsPivot := by
  obtain ⟨problem, tolerance, phase⟩ := s
  cases phase <;> rfl

theorem runPivots_withForm (symbols : s.HasSymbols form.symbols) (pivots : Nat) :
    (s.withForm p form).runPivots pivots =
      ((s.runPivots pivots).1.withForm p form, (s.runPivots pivots).2) := by
  induction pivots generalizing s with
  | zero =>
    unfold runPivots
    rw [needsPivot_withForm, step_withForm symbols]
    split
    · rfl
    · cases s.step with
      | mk next result => cases result <;> simp
  | succ n ih =>
    have kept := symbols.step
    unfold runPivots
    rw [step_withForm symbols]
    cases stepped : s.step with
    | mk next result =>
      rw [stepped] at kept
      cases result with
      | error e => rfl
      | ok step =>
        cases step with
        | pivoted iteration => exact ih kept
        | optimal | unbounded => simp

theorem run_withForm (symbols : s.HasSymbols form.symbols) (pivots : Nat) :
    (s.withForm p form).run pivots =
      ((s.run pivots).1.withForm p form, (s.run pivots).2) := by
  have runs := runPivots_withForm (p := p) symbols pivots
  obtain ⟨problem, tolerance, phase⟩ := s
  cases phase with
  | optimal | unbounded => rfl
  | building | iterating | framingFailed | calculationFailed => exact runs

theorem solution?_withForm : (s.withForm p form).solution? =
    s.solution?.bind fun _ => s.tableaux.getLast?.map (Solution.ofTableau form) := by
  obtain ⟨problem, tolerance, phase⟩ := s
  cases phase with
  | optimal h =>
    have last : h.tableaux.getLast? = some h.latest := List.getLast?_concat
    simp only [solution?, tableaux, history?, Option.map_some, Option.getD_some, last]
    rfl
  | building | iterating | unbounded | framingFailed | calculationFailed => rfl

/-- Framing makes the same of two problems whose standard forms have the same first tableau. -/
theorem frame_withForm (known : StandardForm.ofProblem p = .ok form)
    (twin : StandardForm.ofProblem q = .ok other) (symbols : form.symbols = other.symbols)
    (first : Tableau.initial form = Tableau.initial other) (tolerance : α) :
    (ofProblem p tolerance).frame.1.HasSymbols other.symbols ∧
      (ofProblem q tolerance).frame = ((ofProblem p tolerance).frame.1.withForm q other,
        (ofProblem p tolerance).frame.2) := by
  cases made : Tableau.initial form with
  | error e =>
    have mine : firstHistory p = .error e := by
      simp only [firstHistory, known, made, bind, Except.bind]
    have yours : firstHistory q = .error e := by
      simp only [firstHistory, twin, ← first, made, bind, Except.bind]
    simp only [ofProblem, frame, mine, yours]
    exact ⟨fun h phase => (nomatch phase), rfl⟩
  | ok t =>
    have mine : firstHistory p = .ok ⟨form, [], t⟩ := by
      simp only [firstHistory, known, made, bind, Except.bind, pure, Except.pure]
    have yours : firstHistory q = .ok ⟨other, [], t⟩ := by
      simp only [firstHistory, twin, ← first, made, bind, Except.bind, pure, Except.pure]
    simp only [ofProblem, frame, mine, yours]
    exact ⟨fun h phase => by cases phase; exact symbols, rfl⟩

end Session

/-- Two standard forms with the same symbols and the same first tableau are solved through the same
    tableaux. -/
theorem Solver.solve_withForm {p q : Problem α} {form other : StandardForm α} (solver : Solver α)
    (known : StandardForm.ofProblem p = .ok form) (twin : StandardForm.ofProblem q = .ok other)
    (symbols : form.symbols = other.symbols)
    (first : Tableau.initial form = Tableau.initial other) :
    solver.solve q = (solver.solve p).map (Report.withForm other) := by
  obtain ⟨shared, framed⟩ :=
    Session.frame_withForm known twin symbols first solver.tolerance
  unfold solve session
  rw [framed]
  cases started : (Session.ofProblem p solver.tolerance).frame with
  | mk s result =>
    rw [started] at shared
    cases result with
    | error e => rfl
    | ok t =>
      simp only [Session.run_withForm shared]
      cases s.run solver.maxIterations with
      | mk last result =>
        cases result with
        | error e => simp only [Session.tableaux_withForm]; rfl
        | ok termination =>
          cases termination with
          | notTerminated => simp only [Session.tableaux_withForm]; rfl
          | optimal | unbounded | framingError | calculationError =>
            simp only [Session.tableaux_withForm, Session.standardForm?_withForm,
              Session.solution?_withForm]
            cases last.standardForm? <;> rfl

/-! ### Alike problems -/

/-- Expressions with the same names and the same row in every table. -/
structure Expression.Alike (d e : Expression α) : Prop where
  names : ∀ n, n ∈ d.map Term.name ↔ n ∈ e.map Term.name
  row : ∀ t : SymbolTable, t.row d = t.row e

/-- Equations with alike left sides; without a slack, their variables stand in the same order. -/
structure StandardConstraint.Alike (c d : StandardConstraint α) : Prop where
  lhs : c.lhs.Alike d.lhs
  rhs : c.rhs = d.rhs
  slack : c.slack = d.slack
  order : c.slack = none → c.lhs.map Term.name = d.lhs.map Term.name

/-- The two sides of a constraint, those of a lower bound negated. -/
def Constraint.upperBound (c : Constraint α) : Expression α × α :=
  match c.relation with
  | .lt | .le | .eq => (c.lhs, c.rhs)
  | .gt | .ge => (c.lhs.map Term.negated, -c.rhs)

/-- Constraints that are alike as equations or as upper bounds. -/
structure Constraint.Alike (c d : Constraint α) : Prop where
  equation : c.relation = .eq ↔ d.relation = .eq
  lhs : c.upperBound.1.Alike d.upperBound.1
  rhs : c.upperBound.2 = d.upperBound.2
  order : c.relation = .eq → c.lhs.map Term.name = d.lhs.map Term.name

/-- Problems with alike objectives to maximize and alike constraints in the same order. -/
structure Problem.Alike (p q : Problem α) : Prop where
  names : ∀ n, n ∈ p.objective.map Term.name ↔ n ∈ q.objective.map Term.name
  objective : (StandardForm.signedObjective p).Alike (StandardForm.signedObjective q)
  constraints : List.Forall₂ Constraint.Alike p.constraints q.constraints

namespace Expression.Alike

variable {d e : Expression α}

theorem refl (e : Expression α) : e.Alike e := ⟨fun _ => Iff.rfl, fun _ => rfl⟩

theorem trans {c : Expression α} (h : c.Alike d) (k : d.Alike e) : c.Alike e :=
  ⟨fun n => (h.names n).trans (k.names n), fun t => (h.row t).trans (k.row t)⟩

theorem append (h : d.Alike e) (rest : Expression α) :
    Expression.Alike (d ++ rest) (e ++ rest) where
  names n := by simp only [List.map_append, List.mem_append, h.names]
  row t := by
    simp only [SymbolTable.row, List.foldl_append]
    exact congrArg (rest.foldl t.scatter) (h.row t)

end Expression.Alike

theorem Constraint.Alike.refl (c : Constraint α) : c.Alike c :=
  ⟨Iff.rfl, .refl _, rfl, fun _ => rfl⟩

theorem Constraint.Alike.trans {b c d : Constraint α} (h : b.Alike c) (k : c.Alike d) :
    b.Alike d where
  equation := h.equation.trans k.equation
  lhs := h.lhs.trans k.lhs
  rhs := h.rhs.trans k.rhs
  order equation := (h.order equation).trans (k.order (h.equation.mp equation))

@[simp] theorem map_name_upperBound (c : Constraint α) :
    c.upperBound.1.map Term.name = c.lhs.map Term.name := by
  unfold Constraint.upperBound
  split <;> simp [Term.negated]

namespace StandardForm

theorem equations_cons (letter : Char) (used : Nat) (c : Constraint α)
    (rest : List (Constraint α)) : equations letter used (c :: rest) =
      if c.relation = .eq then ⟨c.upperBound.1, c.upperBound.2, none⟩ :: equations letter used rest
      else withSlack (slackName letter (used + 1)) c.upperBound.1 c.upperBound.2
        :: equations letter (used + 1) rest := by
  cases relation : c.relation <;> simp [equations, Constraint.upperBound, relation]

/-- Alike constraints become alike equations. -/
theorem equations_alike {cs ds : List (Constraint α)} (alike : List.Forall₂ Constraint.Alike cs ds)
    (letter : Char) (used : Nat) : List.Forall₂ StandardConstraint.Alike
      (equations letter used cs) (equations letter used ds) := by
  induction alike generalizing used with
  | nil => exact .nil
  | @cons c d cs ds first _ ih =>
    rw [equations_cons, equations_cons]
    by_cases equation : c.relation = .eq
    · rw [if_pos equation, if_pos (first.equation.mp equation)]
      refine .cons ⟨first.lhs, first.rhs, rfl, fun _ => ?_⟩ (ih used)
      simpa using first.order equation
    · rw [if_neg equation, if_neg fun other => equation (first.equation.mpr other)]
      exact .cons ⟨first.lhs.append _, first.rhs, rfl, nofun⟩ (ih (used + 1))

variable {p q : Problem α}

/-- Alike problems have the same names. -/
theorem mem_terms_alike (alike : p.Alike q) (n : String) :
    n ∈ p.terms.map Term.name ↔ n ∈ q.terms.map Term.name := by
  have sides : ∀ {cs ds : List (Constraint α)}, List.Forall₂ Constraint.Alike cs ds →
      (n ∈ (cs.flatMap Constraint.lhs).map Term.name ↔
        n ∈ (ds.flatMap Constraint.lhs).map Term.name) := by
    intro cs ds related
    induction related with
    | nil => rfl
    | cons first _ ih =>
      have names := first.lhs.names n
      rw [map_name_upperBound, map_name_upperBound] at names
      simp only [List.flatMap_cons, List.map_append, List.mem_append, names, ih]
  simp only [Problem.terms, List.map_append, List.mem_append, alike.names, sides alike.constraints]

theorem slackLetter?_alike (alike : p.Alike q) : slackLetter? p = slackLetter? q := by
  unfold slackLetter?
  have initials : ∀ (r : Problem α) (letter : Char),
      letter ∈ r.terms.filterMap (fun t => t.name.toList.head?) ↔
        ∃ n ∈ r.terms.map Term.name, n.toList.head? = some letter := by
    intro r letter
    simp only [List.mem_filterMap, List.mem_map]
    constructor
    · rintro ⟨t, member, head⟩; exact ⟨t.name, ⟨t, member, rfl⟩, head⟩
    · rintro ⟨_, ⟨t, member, rfl⟩, head⟩; exact ⟨t, member, head⟩
  simp only [List.contains_eq_mem, initials, mem_terms_alike alike]

theorem slacks_alike {cs ds : List (StandardConstraint α)}
    (alike : List.Forall₂ StandardConstraint.Alike cs ds) :
    cs.filterMap StandardConstraint.slack = ds.filterMap StandardConstraint.slack := by
  induction alike with
  | nil => rfl
  | cons first _ ih => simp only [List.filterMap_cons, first.slack, ih]

theorem mem_equations_alike {cs ds : List (StandardConstraint α)}
    (alike : List.Forall₂ StandardConstraint.Alike cs ds) (n : String) :
    n ∈ (cs.flatMap StandardConstraint.lhs).map Term.name ↔
      n ∈ (ds.flatMap StandardConstraint.lhs).map Term.name := by
  induction alike with
  | nil => rfl
  | cons first _ ih =>
    simp only [List.flatMap_cons, List.map_append, List.mem_append, first.lhs.names, ih]

theorem dense_alike {cs ds : List (StandardConstraint α)}
    (alike : List.Forall₂ StandardConstraint.Alike cs ds) (symbols : SymbolTable) :
    (cs.map fun c => symbols.row c.lhs) = ds.map fun c => symbols.row c.lhs := by
  induction alike with
  | nil => rfl
  | cons first _ ih => rw [List.map_cons, List.map_cons, first.lhs.row, ih]

end StandardForm

namespace Tableau

theorem initialBasis?_alike {c d : StandardConstraint α} (alike : c.Alike d)
    (symbols : SymbolTable) (dense : List (List α)) (taken : List Symbol) (index : Nat) :
    initialBasis? symbols dense taken index c = initialBasis? symbols dense taken index d := by
  have named : ∀ e : Expression α, (e.reverse.filterMap fun t => symbols.symbol? t.name) =
      (e.map Term.name).reverse.filterMap symbols.symbol? := by
    intro e
    rw [← List.map_reverse, List.filterMap_map]
    rfl
  unfold initialBasis?
  rw [alike.slack]
  cases slack : d.slack with
  | some n => rfl
  | none => simp only [named, alike.order (alike.slack.trans slack)]

theorem initialRows_alike {f g : StandardForm α} (symbols : f.symbols = g.symbols)
    (costs : f.costs = g.costs) (dense : List (List α)) {cs ds : List (StandardConstraint α)}
    (alike : List.Forall₂ StandardConstraint.Alike cs ds) (taken : List Symbol)
    (rows : List (List α × Nat)) :
    initialRows f dense taken (cs.zip rows) = initialRows g dense taken (ds.zip rows) := by
  induction alike generalizing taken rows with
  | nil => rfl
  | cons first _ ih =>
    cases rows with
    | nil => rfl
    | cons row rest =>
      simp only [List.zip_cons_cons, initialRows, symbols, costs, first.rhs,
        initialBasis?_alike first, ih]

end Tableau

namespace StandardForm

/-- Standard forms that give the same slacks, columns and costs and the same first tableau. -/
structure Alike (f g : StandardForm α) : Prop where
  slackLetter : f.slackLetter = g.slackLetter
  slacks : f.slacks = g.slacks
  symbols : f.symbols = g.symbols
  costs : f.costs = g.costs
  initial : Tableau.initial f = Tableau.initial g

theorem alike_of_parts {f g : StandardForm α} (letter : f.slackLetter = g.slackLetter)
    (objective : f.objective.Alike g.objective)
    (constraints : List.Forall₂ StandardConstraint.Alike f.constraints g.constraints)
    (mine : f.symbols = SymbolTable.ofNames
      ((f.objective ++ f.constraints.flatMap StandardConstraint.lhs).map Term.name))
    (yours : g.symbols = SymbolTable.ofNames
      ((g.objective ++ g.constraints.flatMap StandardConstraint.lhs).map Term.name)) :
    f.Alike g := by
  have symbols : f.symbols = g.symbols := by
    have names : Text.sortNames
        ((f.objective ++ f.constraints.flatMap StandardConstraint.lhs).map Term.name) =
          Text.sortNames
            ((g.objective ++ g.constraints.flatMap StandardConstraint.lhs).map Term.name) := by
      apply Text.sortNames_congr
      intro n
      simp only [List.map_append, List.mem_append, objective.names,
        mem_equations_alike constraints]
    rw [mine, yours]
    simp only [SymbolTable.ofNames, names]
  have costs : f.costs = g.costs := by
    rw [StandardForm.costs, symbols, objective.row]
    rfl
  refine ⟨letter, slacks_alike constraints, symbols, costs, ?_⟩
  simp only [Tableau.initial, symbols, costs, dense_alike constraints,
    Tableau.initialRows_alike symbols costs _ constraints]

/-- Alike problems have alike standard forms, or they have none for the same reason. -/
theorem ofProblem_alike {p q : Problem α} (alike : p.Alike q) :
    (∃ e, ofProblem p = .error e ∧ ofProblem q = .error e) ∨
      ∃ f g, ofProblem p = .ok f ∧ ofProblem q = .ok g ∧ f.Alike g := by
  have empty : p.constraints.isEmpty = q.constraints.isEmpty := by
    rw [Bool.eq_iff_iff, List.isEmpty_iff_length_eq_zero, List.isEmpty_iff_length_eq_zero,
      alike.constraints.length_eq]
  have constant : p.objective.all Term.isConstant = q.objective.all Term.isConstant := by
    have named : ∀ e : Expression α,
        e.all Term.isConstant = (e.map Term.name).all String.isEmpty := by
      intro e
      rw [List.all_map]
      rfl
    rw [named, named, Bool.eq_iff_iff]
    simp only [List.all_eq_true, alike.names]
  have equations := fun letter => equations_alike alike.constraints letter 0
  unfold ofProblem
  rw [empty, constant, slackLetter?_alike alike]
  split
  · exact .inl ⟨_, rfl, rfl⟩
  split
  · exact .inl ⟨_, rfl, rfl⟩
  cases slackLetter? q with
  | none => exact .inl ⟨_, rfl, rfl⟩
  | some letter =>
    refine .inr ⟨_, _, rfl, rfl, alike_of_parts rfl ?_ (equations letter) rfl rfl⟩
    simp only [slacks_alike (equations letter)]
    exact alike.objective.append _

end StandardForm

namespace Solver

variable {p : Problem α} {solver : Solver α} {r : Report α}

/-- A report has the standard form of its problem, and its solution is read off its last
    tableau. -/
theorem solve_reads (solved : solver.solve p = .ok r) :
    StandardForm.ofProblem p = .ok r.standardForm ∧
      ∀ solution, r.solution = some solution → ∃ last, r.tableaux.getLast? = some last ∧
        solution = Solution.ofTableau r.standardForm last := by
  obtain ⟨⟨problem, tolerance, phase⟩, ⟨_, _, history⟩, _, _, form, tableaux, solution⟩ :=
    solve_ok solved
  rw [tableaux, solution]
  cases phase with
  | building | framingFailed => cases form
  | iterating h | unbounded h | calculationFailed h =>
    have own : h.form = r.standardForm := Option.some.inj form
    exact ⟨own ▸ history.1, nofun⟩
  | optimal h =>
    have own : h.form = r.standardForm := Option.some.inj form
    rw [← own]
    refine ⟨history.1, ?_⟩
    rintro _ ⟨⟩
    exact ⟨h.latest, List.getLast?_concat, rfl⟩

end Solver

/-- Reports of one run over alike standard forms: their solutions are read off the same tableau. -/
structure Report.Twins (r s : Report α) : Prop where
  forms : r.standardForm.Alike s.standardForm
  termination : r.termination = s.termination
  tableaux : r.tableaux = s.tableaux
  solution : (r.solution = none ∧ s.solution = none) ∨
    ∃ last, r.solution = some (Solution.ofTableau r.standardForm last) ∧
      s.solution = some (Solution.ofTableau s.standardForm last)

theorem Report.Twins.withForm {r : Report α} {form : StandardForm α}
    (alike : r.standardForm.Alike form)
    (read : ∀ solution, r.solution = some solution → ∃ last, r.tableaux.getLast? = some last ∧
      solution = Solution.ofTableau r.standardForm last) : r.Twins (r.withForm form) where
  forms := alike
  termination := rfl
  tableaux := rfl
  solution := by
    cases found : r.solution with
    | none => exact .inl ⟨rfl, by simp [Report.withForm, found]⟩
    | some solution =>
      obtain ⟨last, final, rfl⟩ := read solution found
      exact .inr ⟨last, rfl, by simp [Report.withForm, found, final]⟩

/-- Alike problems are solved by one run, or they fail in the same way. -/
theorem Solver.solve_of_alike {p q : Problem α} (alike : p.Alike q) (solver : Solver α) :
    (∃ e, solver.solve p = .error e ∧ solver.solve q = .error e) ∨
      ∃ r s, solver.solve p = .ok r ∧ solver.solve q = .ok s ∧
        StandardForm.ofProblem p = .ok r.standardForm ∧
        StandardForm.ofProblem q = .ok s.standardForm ∧ r.Twins s := by
  rcases StandardForm.ofProblem_alike alike with ⟨e, mine, yours⟩ | ⟨f, g, known, twin, forms⟩
  · have fails : ∀ r : Problem α, StandardForm.ofProblem r = .error e →
        solver.solve r = .error (.framing e) := by
      intro r failed
      have none : Session.firstHistory r = .error e := by
        simp only [Session.firstHistory, failed, bind, Except.bind]
      simp only [solve, session, Session.ofProblem, Session.frame, none]
    exact .inl ⟨_, fails p mine, fails q yours⟩
  · have same := solver.solve_withForm known twin forms.symbols forms.initial
    cases solved : solver.solve p with
    | error e => exact .inl ⟨e, rfl, by rw [same, solved]; rfl⟩
    | ok r =>
      obtain ⟨own, read⟩ := solve_reads solved
      obtain rfl : f = r.standardForm := Except.ok.inj (known.symm.trans own)
      exact .inr ⟨r, r.withForm g, rfl, by rw [same, solved]; rfl, known, twin,
        .withForm forms read⟩

end Simplex
