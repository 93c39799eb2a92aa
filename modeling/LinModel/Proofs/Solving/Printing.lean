import LinModel.Proofs.Programs
import LinModel.Proofs.Solving.Verification
import LinModel.Solving.Printing

/-!
# Printing does not change how a run ends

A run that prints takes the steps of a silent one, with a summary before and a table at the end.
The summary is always printed, and the steps do not read what was printed, so they have the same
results and leave the same reports (`Pipeline.runFrom_withPrinting`). The table is printed if the
model of the solution has a variable for every name with a value, and otherwise the look-up of the
first name that it lacks fails (`Report.gives_printTable`): a solution that is returned and
verified without printing is refused with it (`printing_outcome`).

Key definitions: `Report.Gives`, `Solution.lists`, `Solution.unlisted?`, `Pipeline.answer`.
Key theorems: `Report.gives_forIn`, `Report.gives_printTable`, `Pipeline.runFrom_withPrinting`,
`runFrom_optimizePrinting_silent`, `runFrom_optimizePrinting_aloud`, `printing_outcome`.
-/
namespace LinModel

open Extended

variable {K L ε α β : Type}

/-! ### Printers -/

namespace Report

/-- Whatever was printed before, a printer has a result, and prints below it. -/
def Gives (x : Printer α) (r : Except UnlistedName α) : Prop :=
  ∀ lines, ∃ printed, runFrom x lines = (r, lines ++ printed)

theorem gives_pure (a : α) : Gives (pure a) (.ok a) := fun lines =>
  ⟨[], by rw [runFrom_pure, List.append_nil]⟩

theorem gives_throw (e : UnlistedName) : Gives (throw e : Printer α) (.error e) := fun lines =>
  ⟨[], by rw [runFrom_throw, List.append_nil]⟩

theorem gives_printLine (line : String) : Gives (printLine line) (.ok ()) := fun _ => ⟨[line], rfl⟩

/-- What comes after a printer that returns has its own result. -/
theorem Gives.andThen {x : Printer α} {f : α → Printer β} {a : α} {r : Except UnlistedName β}
    (hx : Gives x (.ok a)) (hf : Gives (f a) r) : Gives (x >>= f) r := by
  intro lines
  obtain ⟨first, hfirst⟩ := hx lines
  obtain ⟨second, hsecond⟩ := hf (lines ++ first)
  refine ⟨first ++ second, ?_⟩
  rw [runFrom_bind, hfirst, ← List.append_assoc]
  exact hsecond

theorem Gives.fails {x : Printer α} {f : α → Printer β} {e : UnlistedName}
    (hx : Gives x (.error e)) : Gives (x >>= f) (.error e) := by
  intro lines
  obtain ⟨printed, hprinted⟩ := hx lines
  refine ⟨printed, ?_⟩
  rw [runFrom_bind, hprinted]

theorem gives_forM_printLine : ∀ lines : List String, Gives (lines.forM printLine) (.ok ())
  | [] => gives_pure ()
  | line :: lines => (gives_printLine line).andThen (gives_forM_printLine lines)

/-- Returns, unless there is a failure. -/
def okUnless : Option UnlistedName → Except UnlistedName Unit
  | none => .ok ()
  | some e => .error e

/-- A loop ends at the first item whose pass fails. -/
theorem gives_forIn {body : α → PUnit → Printer (ForInStep PUnit)} {bad : α → Bool}
    {fail : α → UnlistedName} (hbad : ∀ a, bad a = true → Gives (body a ⟨⟩) (.error (fail a)))
    (hgood : ∀ a, bad a = false → Gives (body a ⟨⟩) (.ok (.yield ⟨⟩))) : ∀ l : List α,
    Gives (forIn l PUnit.unit body) (okUnless ((l.find? bad).map fail))
  | [] => gives_pure _
  | a :: l => by
    rw [List.forIn_cons, List.find?_cons]
    cases ha : bad a with
    | true => exact (hbad a ha).fails
    | false => exact (hgood a ha).andThen (gives_forIn hbad hgood l)

theorem gives_printSummary [Scalar K] (model : CompiledModel K L) :
    Gives (printSummary model) (.ok ()) :=
  (gives_forM_printLine _).andThen (gives_forM_printLine _)

end Report

/-! ### Looking names up -/

/-- A variable is found by the texts of the names, and by no others. -/
theorem Problem.variable_eq {p : Problem K L} {name : String} :
    (name ∈ p.names.map (·.text) → ∃ v, p.variable name = .ok v) ∧
      (name ∉ p.names.map (·.text) → p.variable name = .error ⟨name⟩) := by
  have hnames : p.names.map (·.text) = p.vars.map (·.name.text) := List.map_map
  rw [hnames]
  unfold Problem.variable
  cases hfind : p.vars.find? (·.name.text == name) with
  | some v =>
    have htext : v.name.text = name := by simpa using List.find?_some hfind
    have hmem : name ∈ p.vars.map (·.name.text) :=
      htext ▸ List.mem_map_of_mem (List.mem_of_find?_eq_some hfind)
    exact ⟨fun _ => ⟨v, rfl⟩, fun h => absurd hmem h⟩
  | none =>
    refine ⟨fun h => ?_, fun _ => rfl⟩
    obtain ⟨v, hv, rfl⟩ := List.mem_map.mp h
    exact absurd (beq_self_eq_true _) (List.find?_eq_none.mp hfind v hv)

/-- Whether the model of a solution, if there is one, has a variable of this name. -/
def Solution.lists (s : Solution K L) (name : String) : Bool :=
  match s.model with
  | none => true
  | some m => decide (name ∈ m.names.map (·.text))

/-- The first name with a value that the model of a solution lacks. -/
def Solution.unlisted? (s : Solution K L) : Option UnlistedName :=
  (s.values.keys.find? fun name => !s.lists name).map .mk

theorem Solution.unlisted?_eq_none_iff (s : Solution K L) :
    s.unlisted? = none ↔ ∀ name ∈ s.values.keys, s.lists name = true := by
  simp [unlisted?]

namespace Report

variable {w : Writing K L} {s : Solution K L} {name : String}

/-- The bounds of a name are found if the model has it. -/
theorem exists_gives_bounds (h : s.lists name = true) :
    ∃ bounds, Gives ((styleFor w s.model).bounds name) (.ok bounds) := by
  unfold Solution.lists at h
  cases hmodel : s.model with
  | none => exact ⟨("", ""), gives_pure _⟩
  | some m =>
    rw [hmodel] at h
    obtain ⟨v, hv⟩ := Problem.variable_eq.1 (of_decide_eq_true h)
    refine ⟨(w.bound v.lower, w.bound v.upper), ?_⟩
    show Gives (boundsIn w m name) _
    rw [boundsIn, hv]
    exact gives_pure _

theorem gives_bounds_error (h : s.lists name = false) :
    Gives ((styleFor w s.model).bounds name) (.error ⟨name⟩) := by
  unfold Solution.lists at h
  cases hmodel : s.model with
  | none =>
    rw [hmodel] at h
    cases h
  | some m =>
    rw [hmodel] at h
    show Gives (boundsIn w m name) _
    rw [boundsIn, Problem.variable_eq.2 (of_decide_eq_false h)]
    exact gives_throw _

theorem gives_valueLine (value : K) (h : s.lists name = true) :
    ∃ line, Gives ((styleFor w s.model).valueLine name value) (.ok line) := by
  obtain ⟨bounds, hbounds⟩ := exists_gives_bounds h
  exact ⟨_, hbounds.andThen ((gives_pure _).andThen ((gives_pure _).andThen (gives_pure _)))⟩

/-- A part of the table ends at the first entry whose line fails. -/
theorem gives_printSection {style : Style Printer String K} {head : String}
    {line : String → K → Printer String} (bad : String → Bool) (hprint : style.print = printLine)
    (hbad : ∀ name v, bad name = true → Gives (line name v) (.error ⟨name⟩))
    (hgood : ∀ name v, bad name = false → ∃ text, Gives (line name v) (.ok text))
    (l : Entries String K) :
    Gives (printSection style head line (sectionOf l))
      (okUnless ((l.keys.find? bad).map .mk)) := by
  have hkeys : (l.keys.find? bad).map UnlistedName.mk
      = (List.find? (fun entry => bad entry.1) l).map fun entry => ⟨entry.1⟩ := by
    rw [Entries.keys, List.find?_map, Option.map_map]
    rfl
  unfold printSection
  rw [hkeys, hprint]
  refine (gives_pure _).andThen ?_
  cases l with
  | nil => exact gives_pure ()
  | cons entry l =>
    refine (gives_printLine _).andThen ((gives_printLine _).andThen
      ((gives_printLine _).andThen ((gives_pure _).andThen ?_)))
    rw [bind_pure_unit]
    refine gives_forIn (fun entry h => (hbad entry.1 entry.2 h).fails) (fun entry h => ?_) _
    obtain ⟨text, htext⟩ := hgood entry.1 entry.2 h
    exact htext.andThen ((gives_printLine text).andThen (gives_pure _))

/-- The table is printed if the model has a variable for every name. -/
theorem gives_printTable (w : Writing K L) (s : Solution K L) :
    Gives (printTable w s) (okUnless s.unlisted?) := by
  have hvalues : ∀ head, Gives (printSection (styleFor w s.model) head
      (styleFor w s.model).valueLine (sectionOf s.values)) (okUnless s.unlisted?) := by
    intro head
    refine gives_printSection _ rfl (fun name v h => ?_) (fun name v h => ?_) s.values
    · exact (gives_bounds_error (by simpa using h)).fails
    · exact gives_valueLine v (by simpa using h)
  have hduals : ∀ head l, Gives (printSection (styleFor w s.model) head
      (styleFor w s.model).dualLine (sectionOf l)) (.ok ()) := by
    intro head l
    have hline : ∀ name v, ∃ text, Gives ((styleFor w s.model).dualLine name v) (.ok text) :=
      fun name v => ⟨_, (gives_pure _).andThen ((gives_pure _).andThen (gives_pure _))⟩
    have hnone : (Entries.keys l).find? (fun _ => false) = none :=
      List.find?_eq_none.mpr fun _ _ => Bool.false_ne_true
    have hsection : Gives (printSection (styleFor w s.model) head (styleFor w s.model).dualLine
        (sectionOf l)) (okUnless ((Entries.keys l).find? (fun _ => false) |>.map .mk)) :=
      gives_printSection (fun _ => false) rfl (fun _ _ h => nomatch h)
        (fun name v _ => hline name v) l
    rwa [hnone] at hsection
  have hrest : ∀ vhead dhead l, Gives (do
      printSection (styleFor w s.model) vhead (styleFor w s.model).valueLine (sectionOf s.values)
      printSection (styleFor w s.model) dhead (styleFor w s.model).dualLine (sectionOf l)
      (styleFor w s.model).print rule) (okUnless s.unlisted?) := by
    intro vhead dhead l
    have hsection := hvalues vhead
    cases hunlisted : s.unlisted? with
    | none =>
      rw [hunlisted] at hsection
      exact hsection.andThen ((hduals dhead l).andThen (gives_printLine _))
    | some e =>
      rw [hunlisted] at hsection
      exact hsection.fails
  unfold printTable printSolution
  refine (gives_printLine _).andThen ((gives_printLine _).andThen ?_)
  cases s.objectiveValue with
  | none => exact hrest _ _ _
  | some v => exact (gives_pure _).andThen ((gives_printLine _).andThen (hrest _ _ _))

end Report

/-! ### Runs -/

section Pipelines

variable {m : Type → Type} [Monad m] {M S : Type}

/-- What a run does once it has a model, but for printing. -/
def Pipeline.answer (p : Pipeline m M S) (model : M) : m S := do
  let solution ← p.solve model
  let solution ← p.attach model solution
  if ← p.hasAssignment solution then p.verify model solution
  return solution

variable [LawfulMonad m] (p : Pipeline m M S)

theorem Pipeline.run_silent : p.run (fun _ => pure false) = p.build >>= p.answer := by
  unfold run answer
  simp only [pure_bind, Bool.false_eq_true, ↓reduceIte]

theorem Pipeline.run_printing : p.run (fun _ => pure true) = do
    let model ← p.build
    p.summarize model
    let s ← p.answer model
    p.tabulate s
    return s := by
  unfold run answer
  simp only [pure_bind, ↓reduceIte, bind_assoc]
  refine bind_congr fun model => bind_congr fun _ => bind_congr fun s => bind_congr fun s' =>
    bind_congr fun b => ?_
  cases b with
  | true => simp
  | false => simp

end Pipelines

theorem runFrom_silently (x : ExceptT (RunError K L ε) (StateM (Journal K L)) α)
    (t : Transcript K L) : runFrom (silently x) t
      = ((runFrom x t.journal).1.mapError .run, ⟨(runFrom x t.journal).2, t.printed⟩) := rfl

theorem runFrom_aloud (x : Report.Printer α) (t : Transcript K L) :
    runFrom (aloud x : ExceptT (PrintingError K L ε) _ α) t
      = ((runFrom x t.printed).1.mapError .table, ⟨t.journal, (runFrom x t.printed).2⟩) := rfl

theorem silently_pure (a : α) :
    silently (pure a : ExceptT (RunError K L ε) (StateM (Journal K L)) α) = pure a := rfl

theorem silently_bind (x : ExceptT (RunError K L ε) (StateM (Journal K L)) α)
    (f : α → ExceptT (RunError K L ε) (StateM (Journal K L)) β) :
    silently (x >>= f) = silently x >>= fun a => silently (f a) := by
  funext t
  show runFrom (silently (x >>= f)) t = runFrom (silently x >>= fun a => silently (f a)) t
  rw [runFrom_silently, runFrom_bind, runFrom_bind, runFrom_silently]
  rcases runFrom x t.journal with ⟨e | a, j⟩
  · rfl
  · rfl

/-- The silent part of a run that may print is that of the silent run. -/
theorem Pipeline.answer_withPrinting {M S : Type}
    (p : Pipeline (ExceptT (RunError K L ε) (StateM (Journal K L))) M S)
    (summarize : M → ExceptT (PrintingError K L ε) (StateM (Transcript K L)) Unit)
    (tabulate : S → ExceptT (PrintingError K L ε) (StateM (Transcript K L)) Unit) (model : M) :
    (p.withPrinting (fun _ => silently) summarize tabulate).answer model
      = silently (p.answer model) := by
  unfold answer withPrinting
  simp only [silently_bind]
  refine bind_congr fun s => bind_congr fun s' => bind_congr fun b => ?_
  cases b with
  | true => simp only [↓reduceIte, silently_bind, silently_pure]
  | false => simp only [Bool.false_eq_true, ↓reduceIte, silently_pure]

section WithPrinting

variable {M S : Type} (p : Pipeline (ExceptT (RunError K L ε) (StateM (Journal K L))) M S)
  {summarize : M → Report.Printer Unit} {tabulate : S → Report.Printer Unit}

theorem Pipeline.run_withPrinting_silent :
    (p.withPrinting (fun _ => silently) (fun model => aloud (summarize model))
      fun s => aloud (tabulate s)).run (fun _ => pure false)
      = silently (p.run fun _ => pure false) := by
  rw [run_silent, run_silent, silently_bind]
  exact bind_congr fun model => p.answer_withPrinting _ _ model

/-- With printing, a run ends as the silent one, unless a table is not printed. -/
theorem Pipeline.runFrom_withPrinting {failure : S → Option UnlistedName}
    (hsummarize : ∀ model, Report.Gives (summarize model) (.ok ()))
    (htabulate : ∀ s, Report.Gives (tabulate s) (Report.okUnless (failure s)))
    (t : Transcript K L) : ∃ lines,
    runFrom ((p.withPrinting (fun _ => silently) (fun model => aloud (summarize model))
        fun s => aloud (tabulate s)).run fun _ => pure true) t
      = ((runFrom (p.run fun _ => pure false) t.journal).1.mapError .run >>= fun s =>
          match failure s with
          | none => .ok s
          | some e => .error (.table e),
        ⟨(runFrom (p.run fun _ => pure false) t.journal).2, t.printed ++ lines⟩) := by
  have hrun : (p.withPrinting (fun _ => silently) (fun model => aloud (summarize model))
      fun s => aloud (tabulate s)).run (fun _ => pure true) = do
        let model ← silently p.build
        aloud (summarize model)
        let s ← silently (p.answer model)
        aloud (tabulate s)
        return s := by
    rw [run_printing]
    refine bind_congr fun model => bind_congr fun _ => ?_
    rw [p.answer_withPrinting]
    rfl
  rw [hrun, run_silent, runFrom_bind, runFrom_bind, runFrom_silently]
  rcases runFrom p.build t.journal with ⟨e | model, j⟩
  · exact ⟨[], by rw [List.append_nil]; rfl⟩
  obtain ⟨summary, hsummary⟩ := hsummarize model t.printed
  simp only [ok_mapError, runFrom_bind, runFrom_aloud, hsummary, runFrom_silently]
  rcases runFrom (p.answer model) j with ⟨e | s, j'⟩
  · exact ⟨summary, rfl⟩
  obtain ⟨table, htable⟩ := htabulate s (t.printed ++ summary)
  simp only [ok_mapError, htable, ok_bind]
  refine ⟨summary ++ table, ?_⟩
  rw [← List.append_assoc]
  cases failure s with
  | none => rfl
  | some e => rfl

end WithPrinting

section Outcome

variable [Scalar K] [BEq L] (w : Report.Writing K L) (byIndex : ℕ → L) (b : Builder K L)
  (settings : Builder.Settings K) (backend : CompiledModel K L → Except ε (Solution K L))
  (t : Transcript K L)

theorem runFrom_optimizePrinting_silent :
    runFrom (optimizePrinting w false byIndex b settings backend) t
      = ((runFrom (optimize byIndex b settings backend) t.journal).1.mapError .run,
        ⟨(runFrom (optimize byIndex b settings backend) t.journal).2, t.printed⟩) := by
  rw [← runFrom_silently]
  exact congrArg (runFrom · t) (Pipeline.run_withPrinting_silent _)

/-- With printing, the reports are those of `optimize`, and so is the result if the table is
printed. -/
theorem runFrom_optimizePrinting_aloud : ∃ lines,
    runFrom (optimizePrinting w true byIndex b settings backend) t
      = ((runFrom (optimize byIndex b settings backend) t.journal).1.mapError .run >>= fun s =>
          match s.unlisted? with
          | none => .ok s
          | some e => .error (.table e),
        ⟨(runFrom (optimize byIndex b settings backend) t.journal).2, t.printed ++ lines⟩) :=
  (Pipeline.ofBuilder byIndex b settings backend).runFrom_withPrinting
    (fun model => Report.gives_printSummary model) (fun s => Report.gives_printTable w s) t

/-- **Printing does not change the outcome** of a run, but for a name that the model lacks. The two
runs leave the same reports; the silent one prints nothing, and the other adds lines to those
before. It fails as the silent one does, and where that returns a solution, it returns it too,
unless the solution has a value for a name that its model lacks: then it fails at the first of these
names. So the two end in the same way if and only if every name with a value is the name of a
variable. -/
theorem printing_outcome : ∃ silent printing journal lines,
    runFrom (optimizePrinting w false byIndex b settings backend) t
      = (silent, ⟨journal, t.printed⟩) ∧
    runFrom (optimizePrinting w true byIndex b settings backend) t
      = (printing, ⟨journal, t.printed ++ lines⟩) ∧
    printing = (silent >>= fun s => match s.unlisted? with
      | none => .ok s
      | some e => .error (.table e)) ∧
    (printing = silent ↔ ∀ s, silent = .ok s → ∀ name ∈ s.values.keys, s.lists name = true) := by
  obtain ⟨lines, haloud⟩ := runFrom_optimizePrinting_aloud w byIndex b settings backend t
  refine ⟨_, _, _, lines, runFrom_optimizePrinting_silent w byIndex b settings backend t, haloud,
    rfl, ?_⟩
  cases (runFrom (optimize byIndex b settings backend) t.journal).1 with
  | error e => exact iff_of_true rfl nofun
  | ok s =>
    simp only [ok_mapError, ok_bind, Except.ok.injEq, forall_eq']
    rw [← s.unlisted?_eq_none_iff]
    cases s.unlisted? with
    | none => exact iff_of_true rfl rfl
    | some e => exact iff_of_false nofun nofun

end Outcome

/-- A backend that finds the value 2 for the variable of the sample, and a value for `z` besides. -/
def answeringMore (_ : CompiledModel Extended String) : Except Unit (Solution Extended String) :=
  .ok ⟨.optimal, some (rational 2), [("x1", rational 2), ("z", rational 7)], [], none⟩

/-- Solving the sample with this backend. -/
def sampleRunPrinting (printing : Bool) :
    Except (PrintingError Extended String Unit) (Solution Extended String) :=
  (runFrom (optimizePrinting ⟨fun _ => "", fun _ => "", id⟩ printing byNumber
    Builder.sample ⟨some .highs, rational 0⟩ answeringMore) ⟨[], []⟩).1

/-- The name at which a table was not printed, if that ended a run. -/
def tableFailure? : Except (PrintingError K L ε) α → Option String
  | .error (.table e) => some e.name
  | _ => none

theorem tableFailure?_eq_some {result : Except (PrintingError K L ε) α} {name : String}
    (h : tableFailure? result = some name) : result = .error (.table ⟨name⟩) := by
  rcases result with (e | ⟨other⟩) | s
  · cases h
  · cases h
    rfl
  · cases h

/-- The sample is solved without printing, and with printing the run fails at the name `z`. -/
theorem further_name_fails : Builder.sample.Reachable ∧
    (∃ s, sampleRunPrinting false = .ok s) ∧
    sampleRunPrinting true = .error (.table ⟨"z"⟩) := by
  have hok : (sampleRunPrinting false).isOk = true := by decide +kernel
  have hfailure : tableFailure? (sampleRunPrinting true) = some "z" := by decide +kernel
  exact ⟨Builder.sample_reachable, exists_of_isOk hok, tableFailure?_eq_some hfailure⟩

end LinModel
