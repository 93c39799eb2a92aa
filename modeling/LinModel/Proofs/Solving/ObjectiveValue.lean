import LinModel.Proofs.Expression.Evaluators
import LinModel.Proofs.Solving.Duals

/-!
# The objective's value is that of the objective as written

An engine that finds an assignment says what the form of the objective is there. The form depends on
the handles in it alone (`Form.value?_congr`), and all of them are handles of variables
(`lowerCoefficients_handles`), so its value is that of the model's objective at the values of the
variables. Terms that cancelled, the offset and its place in the form make no difference: that is
the value of the objective's expression, its constant counted once, and also what the solution gives
for the expression (`Builder.solve_reports_objective`).

Key definitions: `Outcome.IsSolved`, `Problem.pointOf`.
Key theorems: `Form.value?_congr`, `readValues_eq_map`, `Program.objectiveValue_eq`,
`readOutcome_of_isSolved`, `Builder.solve_reports_objective`.
-/
namespace LinModel

open Extended

variable {ν K L : Type}

/-! ### Forms and values -/

namespace Form

variable [Scalar K] {lookUp lookUp' : ν → Option K}

theorem valueAfter?_congr : ∀ {f : Form ν K} (before : Option K),
    (∀ h ∈ f.handles, lookUp h = lookUp' h) →
    f.valueAfter? lookUp before = f.valueAfter? lookUp' before
  | .constant _, _, _ => rfl
  | .handle g, before, h => by rw [valueAfter?, valueAfter?, h g (List.mem_singleton_self g)]
  | .negation f, before, h => by
    have hf : ∀ g ∈ f.handles, lookUp g = lookUp' g := h
    rw [valueAfter?, valueAfter?, valueAfter?_congr none hf]
  | .sum f g, before, h => by
    obtain ⟨hf, hg⟩ := List.forall_mem_append.mp h
    rw [valueAfter?, valueAfter?, valueAfter?_congr before hf]
    exact congrArg _ (funext fun x => valueAfter?_congr (some x) hg)
  | .product f g, before, h => by
    obtain ⟨hf, hg⟩ := List.forall_mem_append.mp h
    rw [valueAfter?, valueAfter?, valueAfter?_congr none hf, valueAfter?_congr none hg]
  | .quotient f g, before, h => by
    obtain ⟨hf, hg⟩ := List.forall_mem_append.mp h
    rw [valueAfter?, valueAfter?, valueAfter?_congr none hf, valueAfter?_congr none hg]

/-- **The value of a form depends on the handles in it.** -/
theorem value?_congr {f : Form ν K} (h : ∀ g ∈ f.handles, lookUp g = lookUp' g) :
    f.value? lookUp = f.value? lookUp' := valueAfter?_congr none h

end Form

theorem readValues_eq_map {α : Type} {value? : ν → Option K} {name : α → String} {handle : α → ν}
    {value : α → K} : ∀ {l : List α}, (∀ a ∈ l, value? (handle a) = some (value a)) →
    readValues value? (l.map fun a => (name a, handle a)) = some (l.map fun a => (name a, value a))
  | [], _ => rfl
  | a :: l, h => by
    obtain ⟨ha, hl⟩ := List.forall_mem_cons.mp h
    have ih : readValues value? (l.map fun a => (name a, handle a))
        = some (l.map fun a => (name a, value a)) := readValues_eq_map hl
    unfold readValues at ih ⊢
    rw [List.map_cons, List.mapM_cons, ih]
    simp [ha]

/-! ### Outcomes with an assignment -/

/-- The status has an assignment, every handle has a number, and the objective's value is that of
its form at these numbers. -/
structure Outcome.IsSolved (o : Outcome ν Extended) (program : Program ν Extended L)
    (handles : List ν) : Prop where
  status : (SolveStatus.ofWord o.word).hasSolution = true
  values : ∀ h ∈ handles, ∃ q, o.value? h = some (rational q)
  objective : program.objective.expression.value? o.value? = some o.objectiveValue

/-- The number of a handle in an outcome. -/
def Outcome.numberOf (o : Outcome ν Extended) (h : ν) : ℚ := (o.value? h).elim 0 toRat

theorem Outcome.IsSolved.value?_eq {o : Outcome ν Extended} {program : Program ν Extended L}
    {handles : List ν} (ho : o.IsSolved program handles) {h : ν} (hh : h ∈ handles) :
    o.value? h = some (rational (o.numberOf h)) := by
  obtain ⟨q, hq⟩ := ho.values h hh
  rw [numberOf, hq]
  rfl

/-- The point at which variables have the numbers of their handles. -/
def Problem.pointOf (p : Problem Extended L) (handles : List ν) (o : Outcome ν Extended) : Point :=
  fun name => (p.handle? handles name.text).elim 0 o.numberOf

section Solved

variable {p : Problem Extended L} {handles : List ν} {program : Program ν Extended L}
  {o : Outcome ν Extended} (hs : p.IsSound) (hlen : handles.length = p.vars.length)

include hs hlen

/-- What an outcome says of handles is what the point says of variables. -/
theorem handlesAgree_pointOf : p.HandlesAgree handles o.numberOf (p.pointOf handles o) := by
  intro x hx
  rw [Problem.pointOf, handle?_eq hs hlen hx]
  rfl

variable (ho : o.IsSolved program handles)

include ho

/-- In an outcome, the handle of a variable has the number that the point gives the variable. -/
theorem Outcome.IsSolved.value?_pointOf {x : CompiledVariable Extended × ν}
    (hx : x ∈ p.vars.zip handles) :
    o.value? x.2 = some (rational (p.pointOf handles o x.1.name)) := by
  rw [ho.value?_eq (List.of_mem_zip hx).2, handlesAgree_pointOf hs hlen x hx]

variable (hp : Program.ofProblem handles p = .ok program)

include hp

/-- **The objective's value is that of the problem's objective.** -/
theorem Outcome.IsSolved.objectiveValue_eq :
    o.objectiveValue = p.objective.valueAt (p.pointOf handles o) := by
  obtain ⟨-, -, -, hform⟩ := Program.ofProblem_parts hp
  obtain ⟨f, hf, hvalue⟩ := lowerObjective_eq_ok hs hlen
  obtain ⟨q, hq, hobjective⟩ := hvalue _ _ (handlesAgree_pointOf (o := o) hs hlen)
  have hsame : f = program.objective.expression := by
    obtain ⟨f', hf', h⟩ := bind_eq_ok.mp hf
    cases h
    cases hf'.symm.trans hform
    rfl
  have hhandles : ∀ h ∈ program.objective.expression.handles,
      o.value? h = some (rational (o.numberOf h)) := by
    intro h hh
    obtain ⟨name, hname, hhandle⟩ := (lowerCoefficients_handles hform).mp hh
    obtain ⟨x, hx, rfl⟩ := exists_handle hlen (hs.objective.known hname)
    cases (handle?_eq hs hlen hx).symm.trans hhandle
    exact ho.value?_eq (List.of_mem_zip hx).2
  have hread := ho.objective
  rw [Form.value?_congr hhandles, ← hsame, hq] at hread
  rw [hobjective, ← Option.some.inj hread]

/-- **What is read** are the values of the point, and the value of the problem's objective there. -/
theorem readOutcome_of_isSolved [BEq L] (numbered : L → ℕ → L) :
    readOutcome numbered program o = ⟨.ofWord o.word,
      some (p.objective.valueAt (p.pointOf handles o)),
      p.names.map fun name => (name.text, rational (p.pointOf handles o name)),
      readDuals numbered program o.duals, none⟩ := by
  have hvars := (Program.ofProblem_parts hp).1
  rw [Entries.ofList_of_nodup (nodup_keys_handles hs hlen)] at hvars
  have hnames : ((p.vars.zip handles).map fun x =>
        (x.1.name.text, rational (p.pointOf handles o x.1.name)))
      = p.names.map fun name => (name.text, rational (p.pointOf handles o name)) := by
    calc (p.vars.zip handles).map (fun x =>
          (x.1.name.text, rational (p.pointOf handles o x.1.name)))
        = ((p.vars.zip handles).map Prod.fst).map fun x =>
            (x.name.text, rational (p.pointOf handles o x.name)) := by
          rw [List.map_map]
          rfl
      _ = p.names.map fun name => (name.text, rational (p.pointOf handles o name)) := by
          rw [List.map_fst_zip hlen.ge, Problem.names, List.map_map]
          rfl
  have hvalues : readValues o.value? program.vars
      = some (p.names.map fun name => (name.text, rational (p.pointOf handles o name))) := by
    rw [hvars, ← hnames]
    exact readValues_eq_map fun x hx => ho.value?_pointOf hs hlen hx
  rw [readOutcome_of_values ho.status hvalues, ho.objectiveValue_eq hs hlen hp]

end Solved

namespace Builder

variable {b : Builder Extended L} {settings : Settings Extended} {m : CompiledModel Extended L}
  {handles : List ν}

/-- **The value that is reported is that of the objective as written.** Let a model be built whose
kinds the solver supports, and let an engine make one handle per variable. Then the model has a
program, to be made small or large as the objective of the builder is. If the engine answers it with
a number for every handle and the value of the program's objective there, the solve returns a
solution with the engine's status and the number of each variable. The value it reports is that of
the objective's expression at these numbers, the sum of the terms and the constant, and it is what
the solution gives for the expression. -/
theorem solve_reports_objective [BEq ν] [BEq L] {ε : Type} {refuse : SolveFailure → ε}
    {numbered : L → ℕ → L} {makeVariables : List ProgramVariable → Except ε (List ν)}
    {engine : Program ν Extended L → Except ε (Outcome ν Extended)} (hb : b.Reachable)
    (hm : b.build settings = .ok m)
    (hkinds : m.isMixedInteger = true → m.solver.supportsIntegers = true)
    (hmake : makeVariables (m.vars.map CompiledVariable.programVariable) = .ok handles)
    (hlen : handles.length = m.vars.length) :
    ∃ program objective, Program.ofProblem handles m.toProblem = .ok program ∧
      b.objective = some objective ∧ program.objective.goal = objective.goal ∧
      ∀ o, engine program = .ok o → o.IsSolved program handles → ∃ s v,
        m.solve refuse numbered makeVariables engine = .ok s ∧
        s.status = .ofWord o.word ∧
        s.values = m.names.map (fun name => (name.text, rational (v name))) ∧
        (∀ x ∈ m.vars.zip handles, o.value? x.2 = some (rational (v x.1.name))) ∧
        s.value objective.expression = .ok (rational (objective.expression.exactAt v)) ∧
        s.objectiveValue = some (rational (objective.expression.exactAt v)) := by
  obtain ⟨hnames, hs⟩ := isSound_of_build hb.isSound hm
  obtain ⟨program, hp, hgoal, -⟩ :=
    Program.ofProblem_eq_ok hs (isBounded_of_build hb.isSound hm) hlen
  obtain ⟨-, -, -, -, -, objective, hobjective, hcompiled⟩ :=
    compile_eq_ok.mp (build_eq_ok.mp hm).1
  have hexpression := hb.isSound.objective objective hobjective
  obtain ⟨hknown, hparts⟩ := compileObjective_eq_ok.mp hcompiled
  refine ⟨program, objective, hp, hobjective, by rw [hgoal, hparts], fun o ho hsolved => ?_⟩
  have hvalue : m.objective.valueAt (m.pointOf handles o)
      = rational (objective.expression.exactAt (m.pointOf handles o)) := by
    rw [compileObjective_valueAt hexpression hcompiled, Expression.valueAt_eq hexpression]
  have hread := readOutcome_of_isSolved hs hlen hsolved hp numbered
  rw [hvalue] at hread
  have hsolve : m.solve refuse numbered makeVariables engine
      = .ok { readOutcome numbered program o with model := some m } := by
    unfold CompiledModel.solve
    rw [solveWith_eq_ok hkinds hmake hp ho]
    rfl
  rw [hread] at hsolve
  refine ⟨_, m.pointOf handles o, hsolve, rfl, rfl,
    fun x hx => hsolved.value?_pointOf hs hlen hx, ?_, rfl⟩
  rw [← Expression.valueAt_eq hexpression]
  refine Expression.evaluateAt_eq_ok fun name hname => ?_
  exact Solution.find?_values hs.names_nodup (.refl _) name (hnames ▸ hknown hname)

/-- The best outcome for the depot. -/
def atBest : Outcome ℕ Extended :=
  ⟨some "optimal", rational 38, fun h => some (rational (best h)), []⟩

/-- A solve of a model with three variables by an engine that finds it. -/
def solveAtBest (m : CompiledModel Extended String) :
    Except SolveFailure (Solution Extended String) :=
  m.solve id numberedText (fun _ => .ok [1, 2, 3]) fun _ => .ok atBest

/-- The value that is reported for the depot is its profit of 38, and the solution gives it too. -/
theorem depot_reports : ∃ m s, depot.build ⟨some .highs, rational 0⟩ = .ok m ∧
    solveAtBest m = .ok s ∧ s.objectiveValue = some (rational 38) ∧
    s.values = [("x1", rational 1), ("x2", rational 8), ("x3", rational 2)] ∧
    s.value profit = .ok (rational 38) := by
  have hrun : ((depot.build ⟨some .highs, rational 0⟩).toOption.bind fun m =>
      (Program.ofProblem [1, 2, 3] m.toProblem).toOption.bind fun program =>
        (solveAtBest m).toOption.map fun s => (m.solver.supportsIntegers,
          program.objective.expression.value? atBest.value?, s.objectiveValue, s.values))
      = some (true, some (rational 38), some (rational 38),
          [("x1", rational 1), ("x2", rational 8), ("x3", rational 2)]) := by decide +kernel
  obtain ⟨m, hm, hrun⟩ := Option.bind_eq_some_iff.mp hrun
  obtain ⟨program, hprogram, hrun⟩ := Option.bind_eq_some_iff.mp hrun
  obtain ⟨s, hs, hrun⟩ := Option.map_eq_some_iff.mp hrun
  simp only [Prod.mk.injEq] at hrun
  obtain ⟨hsupported, hform, hvalue, hvalues⟩ := hrun
  rw [toOption_eq_some] at hm hprogram hs
  have hlen : [1, 2, 3].length = m.vars.length :=
    (vars_of_build depot_reachable.isSound hm).length_eq
  have hsolved : atBest.IsSolved program [1, 2, 3] := ⟨rfl, fun h _ => ⟨best h, rfl⟩, hform⟩
  obtain ⟨program', objective, hp, hobjective, -, hreports⟩ :=
    @solve_reports_objective ℕ String depot _ m [1, 2, 3] _ _ SolveFailure id numberedText
      (fun _ => .ok [1, 2, 3]) (fun _ => .ok atBest) depot_reachable hm (fun _ => hsupported) rfl
      hlen
  cases hprogram.symm.trans hp
  cases Option.some.inj hobjective
  obtain ⟨s', v, hs', -, -, -, hexpression, hreported⟩ := hreports atBest rfl hsolved
  cases hs.symm.trans hs'
  have hsame := hreported.symm.trans hvalue
  exact ⟨m, s, hm, hs, hvalue, hvalues,
    hexpression.trans (congrArg Except.ok (Option.some.inj hsame))⟩

end Builder

end LinModel
