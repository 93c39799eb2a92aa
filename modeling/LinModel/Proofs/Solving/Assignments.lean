import LinModel.Proofs.Solving.Outcome
import LinModel.Proofs.Solving.Printing

/-!
# No solve hands out a partial assignment

An engine may have any word for how it ended, and values and duals for some variables and relations
and not for others. What is read from it is whole: either the status has an assignment, and every
name of the model has a value, in the order of the model, or there are neither values nor duals nor
a value of the objective (`readOutcome_isWhole`). A solution of a solve carries its model. So what
is done with it later does not miss a name: it is verified (`Solution.IsWhole.verify`), its table is
printed, and a run with this solver returns it, with printing and without
(`Builder.solve_never_partial`).

Key definitions: `Solution.IsWhole`.
Key theorems: `keys_readValues`, `readOutcome_isWhole`, `Program.keys_vars`, `solveWith_returns`,
`Solution.IsWhole.verify`, `Solution.IsWhole.unlisted?`, `optimize_returns`,
`Builder.solve_never_partial`.
-/
namespace LinModel

open Extended

variable {ν K L ε : Type}

/-! ### Outcomes -/

/-- An assignment of all names, in order, or nothing at all. -/
inductive Solution.IsWhole (s : Solution K L) (names : List String) : Prop
  | assigned (status : s.status = .optimal ∨ s.status = .feasible) (keys : s.values.keys = names)
  | empty (status : s.status.hasSolution = false) (values : s.values = []) (duals : s.duals = [])
      (objective : s.objectiveValue = none)

theorem keys_readValues {value? : ν → Option K} {vars : Entries String ν}
    {values : Entries String K} (h : readValues value? vars = some values) :
    values.keys = vars.keys := by
  by_cases hall : ∀ entry ∈ vars, (value? entry.2).isSome = true
  · obtain ⟨values', hvalues, hkeys, -⟩ := readValues_eq_some hall
    cases hvalues.symm.trans h
    exact hkeys
  · have hmissing : ∃ entry ∈ vars, value? entry.2 = none := by simpa using hall
    cases (readValues_eq_none hmissing).symm.trans h

theorem SolveStatus.hasSolution_iff {status : SolveStatus} :
    status.hasSolution = true ↔ status = .optimal ∨ status = .feasible := by
  cases status <;> decide

/-- **What is read of an outcome is whole**, whatever the engine left. -/
theorem readOutcome_isWhole [Scalar K] [BEq L] (numbered : L → ℕ → L) (p : Program ν K L)
    (o : Outcome ν K) : (readOutcome numbered p o).IsWhole p.vars.keys := by
  cases hstatus : (SolveStatus.ofWord o.word).hasSolution with
  | false =>
    have hread : readOutcome numbered p o = ⟨.ofWord o.word, none, [], [], none⟩ := by
      simp only [readOutcome, hstatus, Bool.not_false, ↓reduceIte]
    rw [hread]
    exact .empty hstatus rfl rfl rfl
  | true =>
    cases hvalues : readValues o.value? p.vars with
    | none =>
      have hread : readOutcome numbered p o = ⟨.abnormal, none, [], [], none⟩ := by
        simp only [readOutcome, hstatus, hvalues, Bool.not_true, Bool.false_eq_true, ↓reduceIte]
      rw [hread]
      exact .empty rfl rfl rfl rfl
    | some values =>
      rw [readOutcome_of_values hstatus hvalues]
      exact .assigned (SolveStatus.hasSolution_iff.mp hstatus) (keys_readValues hvalues)

section Solve

variable [Scalar K] [BEq ν] [BEq L] {refuse : SolveFailure → ε} {numbered : L → ℕ → L}
  {makeVariables : List ProgramVariable → Except ε (List ν)}
  {engine : Program ν K L → Except ε (Outcome ν K)} {p : Problem K L} {s : Solution K L}

omit [BEq ν] [BEq L] in
theorem Program.keys_vars {handles : List ν} {program : Program ν K L} (hnodup : p.names.Nodup)
    (hlen : handles.length = p.vars.length) (hp : ofProblem handles p = .ok program) :
    program.vars.keys = p.names.map (·.text) := by
  have hkeys := Problem.keys_handles hlen
  obtain ⟨groups, -, hp⟩ := bind_eq_ok.mp hp
  obtain ⟨o, -, hp⟩ := bind_eq_ok.mp hp
  cases hp
  show (p.handlesByText handles).keys = _
  rw [Problem.handlesByText, Entries.ofList_of_nodup, hkeys]
  rw [hkeys]
  exact hnodup.map fun _ _ => VariableName.eq_of_text_eq

/-- A solve that returns has read an outcome of its program. -/
theorem solveWith_returns {solver : Solver}
    (h : solveWith refuse numbered makeVariables engine solver p = .ok s) :
    ∃ handles program o, makeVariables (p.vars.map CompiledVariable.programVariable) = .ok handles ∧
      Program.ofProblem handles p = .ok program ∧ engine program = .ok o ∧
      s = readOutcome numbered program o := by
  unfold solveWith at h
  cases hkinds : p.isMixedInteger && !solver.supportsIntegers with
  | true =>
    rw [hkinds] at h
    cases h
  | false =>
    rw [hkinds] at h
    obtain ⟨handles, hmake, h⟩ := bind_eq_ok.mp h
    cases hp : Program.ofProblem handles p with
    | error e =>
      rw [hp] at h
      cases h
    | ok program =>
      rw [hp] at h
      obtain ⟨o, ho, h⟩ := bind_eq_ok.mp h
      cases h
      exact ⟨handles, program, o, hmake, hp, ho, rfl⟩

end Solve

/-! ### What is done with a solution -/

section Uses

variable [Scalar K] {s : Solution K L} {m : CompiledModel K L}

/-- **A whole solution is verified**: either there is nothing to check, or no value is missing. -/
theorem Solution.IsWhole.verify [BEq L] (h : s.IsWhole (m.names.map (·.text)))
    (hmodel : s.model = some m) {d : DenseModel K} (hd : DenseModel.ofProblem m.toProblem = .ok d)
    (byIndex : ℕ → L) (t : K) : ∃ report, s.verify byIndex t = .ok report := by
  cases h with
  | assigned status keys =>
    have hfind : ∀ name ∈ m.names, s.values.find? name.text
        = some ((s.values.find? name.text).getD Scalar.zero) := by
      intro name hname
      have hkey : name.text ∈ s.values.keys := keys ▸ List.mem_map_of_mem hname
      obtain ⟨value, hvalue⟩ := Entries.exists_find?_iff.mpr hkey
      rw [hvalue]
      rfl
    exact ⟨_, Solution.verify_of_find byIndex hd (DenseModel.ofProblem_eq_ok_iff.mp hd).order hmodel
      (SolveStatus.hasSolution_iff.mpr status) hfind t⟩
  | empty status =>
    unfold Solution.verify verifyWith
    rw [hmodel, status]
    exact ⟨_, rfl⟩

omit [Scalar K] in
theorem Solution.IsWhole.unlisted? (h : s.IsWhole (m.names.map (·.text)))
    (hmodel : s.model = some m) : s.unlisted? = none := by
  rw [Solution.unlisted?_eq_none_iff]
  intro name hname
  unfold lists
  rw [hmodel]
  cases h with
  | assigned _ keys => exact decide_eq_true (keys ▸ hname)
  | empty _ values =>
    rw [values] at hname
    cases hname

/-- A run returns a solution that carries its model and can be verified. -/
theorem optimize_returns [BEq L] {byIndex : ℕ → L} {b : Builder K L}
    {settings : Builder.Settings K} {backend : CompiledModel K L → Except ε (Solution K L)}
    (hm : b.build settings = .ok m) (hs : backend m = .ok s) (hmodel : s.model = some m)
    {report : Violations K L} (hreport : s.verify byIndex m.tolerance = .ok report)
    (journal : Journal K L) :
    (runFrom (optimize byIndex b settings backend) journal).1 = .ok s := by
  have hattached : ({ s with model := s.model.or (some m) } : Solution K L) = s := by
    rw [hmodel, Option.some_or, ← hmodel]
  cases hstatus : s.status.hasSolution with
  | true => rw [optimize_eq hm hs hstatus (hattached.symm ▸ hreport), hattached]
  | false =>
    unfold optimize Pipeline.run Pipeline.ofBuilder
    simp only [hm, hs, hstatus, hattached, runFrom_bind, Pipeline.ofBuilder.liftExcept, ok_mapError,
      runFrom_pure, Bool.false_eq_true, ↓reduceIte]

theorem optimizePrinting_returns [BEq L] {byIndex : ℕ → L} {b : Builder K L}
    {settings : Builder.Settings K} {backend : CompiledModel K L → Except ε (Solution K L)}
    {transcript : Transcript K L}
    (hrun : (runFrom (optimize byIndex b settings backend) transcript.journal).1 = .ok s)
    (hlisted : s.unlisted? = none) (w : Report.Writing K L) (printing : Bool) :
    (runFrom (optimizePrinting w printing byIndex b settings backend) transcript).1 = .ok s := by
  cases printing with
  | false =>
    rw [runFrom_optimizePrinting_silent, hrun]
    rfl
  | true =>
    obtain ⟨lines, haloud⟩ :=
      runFrom_optimizePrinting_aloud w byIndex b settings backend transcript
    rw [haloud, hrun]
    simp only [ok_mapError, ok_bind, hlisted]

end Uses

/-! ### Solves -/

namespace Builder

variable [Scalar K] [Scalar.LawfulUnits K] [BEq ν] [BEq L] {b : Builder K L}
  {settings : Settings K} {m : CompiledModel K L} {s : Solution K L} {refuse : SolveFailure → ε}
  {numbered : L → ℕ → L} {makeVariables : List ProgramVariable → Except ε (List ν)}
  {engine : Program ν K L → Except ε (Outcome ν K)}

/-- **No partial assignment is handed out.** Let a model be built, and let an engine that makes one
handle per variable leave any word, and any values and duals or none. If the solve returns, its
solution carries the model. It is optimal or feasible and has a value for exactly the names of the
model, in order, or it has no values, no duals and no value of the objective. It can be verified
with any tolerance, its table is printed, and solving the builder with this engine returns it, with
printing and without. -/
theorem solve_never_partial (hb : b.Reachable) (hm : b.build settings = .ok m)
    (hmake : ∀ handles, makeVariables (m.vars.map CompiledVariable.programVariable) = .ok handles →
      handles.length = m.vars.length)
    (hs : m.solve refuse numbered makeVariables engine = .ok s) :
    s.model = some m ∧ s.IsWhole (m.names.map (·.text)) ∧
      (∀ byIndex t, ∃ report, s.verify byIndex t = .ok report) ∧
      (∀ w, Report.Gives (Report.printTable w s) (.ok ())) ∧
      ∀ byIndex w printing transcript,
        (runFrom (optimizePrinting w printing byIndex b settings
          (CompiledModel.solve refuse numbered makeVariables engine)) transcript).1 = .ok s := by
  obtain ⟨-, hproblem⟩ := isSound_of_build hb.isSound hm
  obtain ⟨solution, hsolution, h⟩ := bind_eq_ok.mp hs
  cases h
  obtain ⟨handles, program, o, hhandles, hprogram, -, rfl⟩ := solveWith_returns hsolution
  have hkeys := Program.keys_vars hproblem.names_nodup (hmake handles hhandles) hprogram
  have hwhole : Solution.IsWhole { readOutcome numbered program o with model := some m }
      (m.names.map (·.text)) := by
    rw [← hkeys]
    cases readOutcome_isWhole numbered program o with
    | assigned status keys => exact .assigned status keys
    | empty status values duals objective => exact .empty status values duals objective
  obtain ⟨d, hd⟩ := DenseModel.exists_ofProblem_iff.mpr ⟨fun c hc =>
    ⟨(hproblem.constraints c hc).known, (hproblem.constraints c hc).finite⟩,
    hproblem.objective.known, hproblem.objective.finite, hproblem.offset⟩
  have hverify := hwhole.verify rfl hd
  refine ⟨rfl, hwhole, hverify, fun w => ?_, fun byIndex w printing transcript => ?_⟩
  · have htable := Report.gives_printTable w { readOutcome numbered program o with model := some m }
    rwa [hwhole.unlisted? rfl] at htable
  · obtain ⟨report, hreport⟩ := hverify byIndex m.tolerance
    exact optimizePrinting_returns (optimize_returns hm hs rfl hreport _)
      (hwhole.unlisted? rfl) w printing

/-- A solve of a model with one variable by an engine that stops early, with a value for the
variable or without, and has no duals. -/
def solveStopped (value : Option Extended) (m : CompiledModel Extended String) :
    Except SolveFailure (Solution Extended String) :=
  m.solve id numberedText (fun _ => .ok [()])
    fun _ => .ok ⟨some "user_limit", rational 2, fun _ => value, []⟩

/-- Solving the sample, with printing, by an engine that stops early. -/
def sampleRunStopped (value : Option Extended) :
    Except (PrintingError Extended String SolveFailure) (Solution Extended String) :=
  (runFrom (optimizePrinting ⟨fun _ => "", fun _ => "", id⟩ true byNumber sample
    ⟨some .highs, rational 0⟩ (solveStopped value)) ⟨[], []⟩).1

/-- If the engine has a value for the variable of the sample, the solution is feasible and has it;
if not, the solution is abnormal and has none. Either is returned and printed. -/
theorem sample_never_partial :
    (∃ s, sampleRunStopped (some (rational 2)) = .ok s ∧ s.status = .feasible ∧
      s.values.keys = ["x1"] ∧ ∀ w, Report.Gives (Report.printTable w s) (.ok ())) ∧
    ∃ s, sampleRunStopped none = .ok s ∧ s.status = .abnormal ∧ s.values.keys = [] ∧
      ∀ w, Report.Gives (Report.printTable w s) (.ok ()) := by
  have hsolves : ((sample.build ⟨some .highs, rational 0⟩).toOption.bind fun m =>
      (solveStopped (some (rational 2)) m).toOption.bind fun s =>
        (solveStopped none m).toOption.map fun s' =>
          ((s.status, s.values.keys), s'.status, s'.values.keys))
      = some ((.feasible, ["x1"]), .abnormal, []) := by decide +kernel
  obtain ⟨m, hm, hsolves⟩ := Option.bind_eq_some_iff.mp hsolves
  obtain ⟨s, hs, hsolves⟩ := Option.bind_eq_some_iff.mp hsolves
  obtain ⟨s', hs', hsolves⟩ := Option.map_eq_some_iff.mp hsolves
  simp only [Prod.mk.injEq] at hsolves
  obtain ⟨⟨hstatus, hkeys⟩, hstatus', hkeys'⟩ := hsolves
  rw [toOption_eq_some] at hm hs hs'
  have hlen : [()].length = m.vars.length := (vars_of_build sample_reachable.isSound hm).length_eq
  have hwhole : ∀ {value s}, solveStopped value m = .ok s → sampleRunStopped value = .ok s ∧
      ∀ w, Report.Gives (Report.printTable w s) (.ok ()) := by
    intro value s hs
    obtain ⟨-, -, -, htable, hrun⟩ := solve_never_partial sample_reachable hm
      (by rintro _ ⟨⟩; exact hlen) hs
    exact ⟨hrun _ _ true _, htable⟩
  exact ⟨⟨s, (hwhole hs).1, hstatus, hkeys, (hwhole hs).2⟩,
    s', (hwhole hs').1, hstatus', hkeys', (hwhole hs').2⟩

end Builder
end LinModel
