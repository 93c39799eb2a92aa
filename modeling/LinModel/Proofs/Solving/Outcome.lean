import LinModel.Proofs.Compiling.Lowerable
import LinModel.Proofs.Solving.Program
import LinModel.Solving.Outcome

/-!
# Which successful solves are reported as such

An engine gives values to the handles that occur in what it is handed. A variable occurs through a
finite bound, unless it is boolean, or through a term of a constraint or of the objective; nothing
else mentions it (`mem_occurring_iff`). Reading the outcome asks for a value of every variable. So
an optimal outcome is reported as optimal, with a value for every variable, if all variables of the
model are used in one of these ways. If one is not, the same outcome is reported as abnormal and
its values are dropped (`Builder.solve_reports`).

Key definitions: `Relation.handles`, `Problem.Uses`, `Outcome.Answers`.
Key theorems: `lowerConstraint_handles`, `lowerBounds_handles`, `mem_occurring_iff`,
`readValues_eq_some`, `Builder.solve_reports`.
-/
namespace LinModel

open Extended

variable {ν L : Type}

/-! ### Which handles occur -/

/-- The handles of both sides. -/
def Relation.handles {K : Type} (r : Relation ν K) : List ν := r.left.handles ++ r.right.handles

theorem Form.handles_foldl {K : Type} : ∀ (terms : List (ν × K)) (f : Form ν K),
    (terms.foldl (fun total (h, c) => .sum total (.product (.constant c) (.handle h))) f).handles
      = f.handles ++ terms.map Prod.fst
  | [], f => (List.append_nil _).symm
  | (h, c) :: terms, f => by
    rw [List.foldl_cons, handles_foldl terms]
    simp [handles]

theorem Form.handles_ofTermsAnd {K : Type} [Scalar K] (terms : List (ν × K)) (k : K) :
    (ofTermsAnd terms k).handles = terms.map Prod.fst := by
  cases terms with
  | nil => rfl
  | cons term terms =>
    obtain ⟨h, c⟩ := term
    have hsum := handles_foldl terms (.product (.constant c) (.handle h))
    have hterms : (product (constant c) (handle h)).handles ++ terms.map Prod.fst
        = ((h, c) :: terms).map Prod.fst := rfl
    rw [hterms] at hsum
    unfold ofTermsAnd ofTerms
    by_cases hk : Scalar.beq k Scalar.zero = true
    · simpa [hk] using hsum
    · simpa [hk, handles] using hsum

section Lowered

variable {K : Type} [Scalar K] {handle? : String → Option ν} {cs : Coefficients K} {h : ν}

theorem lowerCoefficients_handles {k : K} {f : Form ν K}
    (hf : lowerCoefficients handle? cs.texts k = .ok f) :
    h ∈ f.handles ↔ ∃ name ∈ cs.keys, handle? name.text = some h := by
  obtain ⟨terms, hterms, hform⟩ := bind_eq_ok.mp hf
  cases hform
  have hnames : cs.keys.map (fun name => handle? name.text) = terms.map (some ∘ Prod.fst) := by
    have hmap := map_eq_of_forall₂ (f := fun e => handle? e.1) (g := some ∘ Prod.fst)
      (mapM_eq_ok.mp hterms) (by
        rintro ⟨name, c⟩ term hterm
        cases hh : handle? name with
        | none => simp [hh] at hterm
        | some h =>
          simp only [hh, Except.ok.injEq] at hterm
          rw [← hterm]
          rfl)
    rw [← hmap]
    simp [Entries.keys, Coefficients.texts]
  rw [Form.handles_ofTermsAnd, ← List.mem_map_of_injective (Option.some_injective ν), List.map_map,
    ← hnames, List.mem_map]

theorem atLeast_handles {f : Form ν K} {low : K} :
    (∃ r ∈ atLeast f low, h ∈ r.handles) ↔ Scalar.isFinite low = true ∧ h ∈ f.handles := by
  unfold atLeast
  by_cases hlow : Scalar.isFinite low = true
  · simp [hlow, Relation.handles, Form.handles]
  · simp [hlow]

theorem atMost_handles {f : Form ν K} {high : K} :
    (∃ r ∈ atMost f high, h ∈ r.handles) ↔ Scalar.isFinite high = true ∧ h ∈ f.handles := by
  unfold atMost
  by_cases hhigh : Scalar.isFinite high = true
  · simp [hhigh, Relation.handles, Form.handles]
  · simp [hhigh]

theorem exists_mem_append {α : Type} {l l' : List α} {P : α → Prop} :
    (∃ a ∈ l ++ l', P a) ↔ (∃ a ∈ l, P a) ∨ ∃ a ∈ l', P a := by
  simp only [List.mem_append, or_and_right, exists_or]

/-- **A range with a finite end mentions the handles of its terms.** -/
theorem lowerConstraint_handles {lower upper : K} {rs : List (Relation ν K)}
    (hends : Scalar.isFinite lower = true ∨ Scalar.isFinite upper = true)
    (hrs : lowerConstraint handle? cs.texts lower upper = .ok rs) :
    (∃ r ∈ rs, h ∈ r.handles) ↔ ∃ name ∈ cs.keys, handle? name.text = some h := by
  obtain ⟨f, hf, hrelations⟩ := bind_eq_ok.mp hrs
  rw [← lowerCoefficients_handles hf]
  by_cases heq : Scalar.beq lower upper = true
  · rw [if_pos heq] at hrelations
    cases hrelations
    simp [Relation.handles, Form.handles]
  · rw [if_neg heq] at hrelations
    cases hrelations
    rw [exists_mem_append, atLeast_handles, atMost_handles, ← or_and_right, and_iff_right hends]

/-- **The bounds of a variable mention it** if one of them is finite and it is not boolean. -/
theorem lowerBounds_handles {x : CompiledVariable K} {g : ν} :
    (∃ r ∈ lowerBounds x g, h ∈ r.handles) ↔
      (x.kind ≠ .boolean ∧ (Scalar.isFinite x.lower = true ∨ Scalar.isFinite x.upper = true)) ∧
        h = g := by
  have hhandle : h ∈ (Form.handle g : Form ν K).handles ↔ h = g := List.mem_singleton
  unfold lowerBounds
  cases x.kind with
  | boolean => simp
  | integer | numeric =>
    rw [exists_mem_append, atLeast_handles, atMost_handles, ← or_and_right, hhandle]
    simp

end Lowered

/-- A variable has a finite bound and is not boolean, or is in a constraint or the objective. -/
def Problem.Uses (p : Problem Extended L) (x : CompiledVariable Extended) : Prop :=
  (x.kind ≠ .boolean ∧ (Scalar.isFinite x.lower = true ∨ Scalar.isFinite x.upper = true)) ∨
    (∃ c ∈ p.constraints, x.name ∈ c.coefficients.keys) ∨ x.name ∈ p.objective.coefficients.keys

instance (p : Problem Extended L) (x : CompiledVariable Extended) : Decidable (p.Uses x) :=
  inferInstanceAs (Decidable (_ ∨ _))

/-- Every range has a finite end. -/
def Problem.HasEnds (p : Problem Extended L) : Prop :=
  ∀ c ∈ p.constraints, Scalar.isFinite c.lower = true ∨ Scalar.isFinite c.upper = true

section Whole

variable {p : Problem Extended L} {handles : List ν} {program : Program ν Extended L}

/-- A program has its handles by name, the bounds of the variables, and what the constraints and the
objective are lowered to. -/
theorem Program.ofProblem_parts (h : ofProblem handles p = .ok program) :
    program.vars = Entries.ofList ((p.vars.zip handles).map fun (x, h) => (x.name.text, h)) ∧
      program.bounds = ((p.vars.zip handles).flatMap fun (x, h) => lowerBounds x h) ∧
      List.Forall₂ (fun c group =>
        lowerConstraint (p.handle? handles) c.coefficients.texts c.lower c.upper = .ok group.2)
        p.constraints program.groups ∧
      lowerCoefficients (p.handle? handles) p.objective.coefficients.texts p.objective.offset
        = .ok program.objective.expression := by
  have hgroups := (ofProblem_groups h).imp fun c group hgroup => hgroup.2
  obtain ⟨groups, -, h⟩ := bind_eq_ok.mp h
  obtain ⟨o, ho, h⟩ := bind_eq_ok.mp h
  obtain ⟨f, hf, ho⟩ := bind_eq_ok.mp ho
  cases ho
  cases h
  exact ⟨rfl, rfl, hgroups, hf⟩

theorem exists_mem_zip (hlen : handles.length = p.vars.length) {x : CompiledVariable Extended}
    (hx : x ∈ p.vars) : ∃ h, (x, h) ∈ p.vars.zip handles := by
  rw [← List.map_fst_zip hlen.ge] at hx
  obtain ⟨⟨x, h⟩, hmem, rfl⟩ := List.mem_map.mp hx
  exact ⟨h, hmem⟩

theorem eq_of_mem_zip (hlen : handles.length = p.vars.length) (hnodup : handles.Nodup)
    {x y : CompiledVariable Extended} {h : ν} (hx : (x, h) ∈ p.vars.zip handles)
    (hy : (y, h) ∈ p.vars.zip handles) : x = y := by
  have hsnd : ((p.vars.zip handles).map Prod.snd).Nodup := by
    rwa [List.map_snd_zip hlen.le]
  cases List.inj_on_of_nodup_map hsnd hx hy rfl
  rfl

section Occurring

variable (hs : p.IsSound) (hlen : handles.length = p.vars.length) (hnodup : handles.Nodup)

include hs hlen hnodup

theorem handle?_eq_some_iff {x : CompiledVariable Extended} {h : ν}
    (hx : (x, h) ∈ p.vars.zip handles) {name : VariableName} (hname : name ∈ p.names) :
    p.handle? handles name.text = some h ↔ name = x.name := by
  obtain ⟨⟨y, g⟩, hy, rfl⟩ := exists_handle hlen hname
  have hhandle : p.handle? handles y.name.text = some g := handle?_eq hs hlen hy
  rw [hhandle, Option.some.injEq]
  constructor
  · rintro rfl
    rw [eq_of_mem_zip hlen hnodup hx hy]
  · intro hnames
    have hown := handle?_eq hs hlen hx
    rw [← hnames, hhandle] at hown
    exact Option.some.inj hown

/-- Terms have the handle of a variable if they have its name. -/
theorem exists_handle?_iff {x : CompiledVariable Extended} {h : ν}
    (hx : (x, h) ∈ p.vars.zip handles) {cs : Coefficients Extended} (hcs : cs.AreOver p.names) :
    (∃ name ∈ cs.keys, p.handle? handles name.text = some h) ↔ x.name ∈ cs.keys := by
  constructor
  · rintro ⟨name, hname, hhandle⟩
    rwa [← (handle?_eq_some_iff hs hlen hnodup hx (hcs.known hname)).mp hhandle]
  · exact fun hname => ⟨x.name, hname, handle?_eq hs hlen hx⟩

variable (hends : p.HasEnds) (hp : Program.ofProblem handles p = .ok program)

include hends hp

/-- **A handle occurs in the program if the problem uses its variable**, and only then. -/
theorem mem_occurring_iff {x : CompiledVariable Extended} {h : ν}
    (hx : (x, h) ∈ p.vars.zip handles) : h ∈ program.occurring ↔ p.Uses x := by
  obtain ⟨-, hbounds, hgroups, hobjective⟩ := Program.ofProblem_parts hp
  have hbound : (∃ r ∈ program.bounds, h ∈ r.handles) ↔ x.kind ≠ .boolean ∧
      (Scalar.isFinite x.lower = true ∨ Scalar.isFinite x.upper = true) := by
    rw [hbounds]
    simp only [List.mem_flatMap]
    constructor
    · rintro ⟨r, ⟨⟨y, g⟩, hy, hr⟩, hh⟩
      obtain ⟨hfinite, rfl⟩ := lowerBounds_handles.mp ⟨r, hr, hh⟩
      rwa [eq_of_mem_zip hlen hnodup hx hy]
    · intro hfinite
      obtain ⟨r, hr, hh⟩ := lowerBounds_handles.mpr ⟨hfinite, rfl⟩
      exact ⟨r, ⟨(x, h), hx, hr⟩, hh⟩
  have hgroup : (∃ r ∈ program.groups.flatMap Prod.snd, h ∈ r.handles) ↔
      ∃ c ∈ p.constraints, x.name ∈ c.coefficients.keys := by
    -- no relation of a group has the handle where its constraint does not have the name
    have hnone := forall_mem_congr
      (p := fun c => x.name ∉ c.coefficients.keys) (q := fun group => ∀ r ∈ group.2, h ∉ r.handles)
      ((List.forall₂_and_left _ _).mpr ⟨fun c hc => And.intro (hends c hc) (hs.constraints c hc),
        hgroups⟩) (by
        rintro c group ⟨⟨hfinite, hover⟩, hrs⟩
        rw [← exists_handle?_iff hs hlen hnodup hx hover, ← lowerConstraint_handles hfinite hrs]
        simp only [not_exists, not_and])
    rw [← not_iff_not]
    simp only [not_exists, not_and, List.forall_mem_flatMap]
    exact hnone.symm
  have hlist : h ∈ program.occurring ↔ (∃ r ∈ program.bounds ++ program.groups.flatMap Prod.snd,
      h ∈ r.handles) ∨ h ∈ program.objective.expression.handles := by
    rw [Program.occurring, List.mem_append, List.mem_flatMap]
    rfl
  rw [hlist, exists_mem_append, hbound, hgroup, lowerCoefficients_handles hobjective,
    exists_handle?_iff hs hlen hnodup hx hs.objective, Problem.Uses, or_assoc]

end Occurring

end Whole

/-! ### Reading values -/

section Reading

variable {K : Type} {value? : ν → Option K} {vars : Entries String ν}

theorem readValues_eq_some (h : ∀ entry ∈ vars, (value? entry.2).isSome = true) :
    ∃ values, readValues value? vars = some values ∧ values.keys = vars.keys ∧
      ∀ entry ∈ vars, ∃ v, value? entry.2 = some v ∧ (entry.1, v) ∈ values := by
  induction vars with
  | nil => exact ⟨[], rfl, rfl, nofun⟩
  | cons entry vars ih =>
    obtain ⟨name, g⟩ := entry
    obtain ⟨hg, hrest⟩ := List.forall_mem_cons.mp h
    obtain ⟨v, hv⟩ := Option.isSome_iff_exists.mp hg
    obtain ⟨values, hvalues, hkeys, hmem⟩ := ih hrest
    refine ⟨(name, v) :: values, ?_, by rw [Entries.keys_cons, Entries.keys_cons, hkeys],
      List.forall_mem_cons.mpr ⟨⟨v, hv, List.mem_cons_self⟩, fun entry hentry => ?_⟩⟩
    · unfold readValues at hvalues ⊢
      simp [List.mapM_cons, hvalues, hv]
    · obtain ⟨w, hw, hentry⟩ := hmem entry hentry
      exact ⟨w, hw, List.mem_cons_of_mem _ hentry⟩

theorem readValues_eq_none (h : ∃ entry ∈ vars, value? entry.2 = none) :
    readValues value? vars = none := by
  induction vars with
  | nil =>
    obtain ⟨entry, hentry, -⟩ := h
    cases hentry
  | cons entry vars ih =>
    obtain ⟨name, g⟩ := entry
    unfold readValues at ih ⊢
    rw [List.mapM_cons]
    cases hg : value? g with
    | none => simp [hg]
    | some v =>
      have hrest : ∃ entry ∈ vars, value? entry.2 = none := by
        obtain ⟨other, hother, hnone⟩ := h
        rcases List.mem_cons.mp hother with rfl | hother
        · rw [hg] at hnone
          cases hnone
        · exact ⟨other, hother, hnone⟩
      rw [ih hrest]
      simp [hg]

end Reading

/-- If the status has an assignment and all values are read, they are reported as they are. -/
theorem readOutcome_of_values {K : Type} [Scalar K] [BEq L] {numbered : L → ℕ → L}
    {program : Program ν K L} {o : Outcome ν K} {values : Entries String K}
    (hstatus : (SolveStatus.ofWord o.word).hasSolution = true)
    (hvalues : readValues o.value? program.vars = some values) :
    readOutcome numbered program o = ⟨.ofWord o.word, some o.objectiveValue, values,
      readDuals numbered program o.duals, none⟩ := by
  simp only [readOutcome, hstatus, hvalues, Bool.not_true, Bool.false_eq_true, ↓reduceIte]

/-! ### A solve -/

/-- An optimal outcome that has values for exactly the handles that occur. -/
structure Outcome.Answers (o : Outcome ν Extended) (program : Program ν Extended L)
    (handles : List ν) : Prop where
  word : o.word = some "optimal"
  values : ∀ h ∈ handles, (o.value? h).isSome = true ↔ h ∈ program.occurring

section Solve

variable [BEq L] {p : Problem Extended L} {handles : List ν} {program : Program ν Extended L}
  {o : Outcome ν Extended} (numbered : L → Nat → L)
  (hs : p.IsSound) (hlen : handles.length = p.vars.length) (hnodup : handles.Nodup)
  (hends : p.HasEnds) (hp : Program.ofProblem handles p = .ok program)
  (ho : o.Answers program handles)

include hs hlen hnodup hends hp ho

/-- **If all variables are used**, an answer is read as optimal, with all its values. -/
theorem readOutcome_of_uses (huses : ∀ x ∈ p.vars, p.Uses x) :
    (readOutcome numbered program o).status = .optimal ∧ ∀ x ∈ p.vars.zip handles,
      ∃ v, o.value? x.2 = some v ∧
        (readOutcome numbered program o).values.find? x.1.name.text = some v := by
  have hkeys := nodup_keys_handles hs hlen
  have hvars := (Program.ofProblem_parts hp).1
  rw [Entries.ofList_of_nodup hkeys] at hvars
  have hvalue : ∀ entry ∈ program.vars, (o.value? entry.2).isSome = true := by
    rw [hvars, List.forall_mem_map]
    rintro ⟨x, h⟩ hx
    rw [ho.values h (List.of_mem_zip hx).2, mem_occurring_iff hs hlen hnodup hends hp hx]
    exact huses x (List.of_mem_zip hx).1
  obtain ⟨values, hvalues, hnames, hmem⟩ := readValues_eq_some hvalue
  have hread : (readOutcome numbered program o).status = .optimal ∧
      (readOutcome numbered program o).values = values := by
    unfold readOutcome
    rw [ho.word, hvalues]
    exact ⟨rfl, rfl⟩
  refine ⟨hread.1, fun x hx => ?_⟩
  have hentry : (x.1.name.text, x.2) ∈ program.vars := by
    rw [hvars]
    exact List.mem_map_of_mem (f := fun (x, h) => (x.name.text, h)) hx
  obtain ⟨v, hv, hvalue⟩ := hmem _ hentry
  rw [hread.2]
  refine ⟨v, hv, Entries.find?_eq_some_of_mem ?_ hvalue⟩
  rwa [hnames, hvars]

/-- **If a variable is not used**, an answer is read as abnormal, and its values are dropped. -/
theorem readOutcome_of_not_uses {x : CompiledVariable Extended} (hx : x ∈ p.vars)
    (hunused : ¬p.Uses x) :
    (readOutcome numbered program o).status = .abnormal ∧
      (readOutcome numbered program o).values = [] := by
  obtain ⟨h, hmem⟩ := exists_mem_zip hlen hx
  have hnone : o.value? h = none := by
    rw [← mem_occurring_iff hs hlen hnodup hends hp hmem,
      ← ho.values h (List.of_mem_zip hmem).2] at hunused
    simpa using hunused
  have hentry : (x.name.text, h) ∈ program.vars := by
    rw [(Program.ofProblem_parts hp).1, Entries.ofList_of_nodup (nodup_keys_handles hs hlen)]
    exact List.mem_map_of_mem (f := fun (x, h) => (x.name.text, h)) hmem
  unfold readOutcome
  rw [ho.word, readValues_eq_none ⟨_, hentry, hnone⟩]
  exact ⟨rfl, rfl⟩

end Solve

namespace Builder

variable {b : Builder Extended L} {settings : Settings Extended} {m : CompiledModel Extended L}

theorem hasEnds_of_build (hb : b.IsSound) (hm : b.build settings = .ok m) :
    m.toProblem.HasEnds := by
  intro c' hc'
  obtain ⟨c, -, hc, hcompile⟩ := exists_mem_of_forall₂ (constraints_of_build hb hm) hc'
  obtain ⟨k, hlower, hupper, -⟩ := compileConstraint_terms hc hcompile
  rw [hlower, hupper]
  cases c.relationship with
  | le => exact .inr rfl
  | eq | ge => exact .inl rfl

/-- **What becomes of an optimal outcome.** Let an engine make a handle of its own for every
variable of a model that is built and whose kinds the solver supports, and answer its program with
an optimal outcome that has values for exactly the handles that occur in it. If the model uses all
its variables, the solve is reported as optimal, and every variable has the engine's value. If it
does not use one of them, the solve is reported as abnormal, and no variable has a value. -/
theorem solve_reports [BEq ν] [BEq L] {ε : Type} {refuse : SolveFailure → ε}
    {numbered : L → Nat → L} {makeVariables : List ProgramVariable → Except ε (List ν)}
    {engine : Program ν Extended L → Except ε (Outcome ν Extended)} {handles : List ν}
    (hb : b.Reachable) (hm : b.build settings = .ok m)
    (hkinds : m.isMixedInteger = true → m.solver.supportsIntegers = true)
    (hmake : makeVariables (m.vars.map CompiledVariable.programVariable) = .ok handles)
    (hlen : handles.length = m.vars.length) (hnodup : handles.Nodup)
    (hengine : ∀ program, Program.ofProblem handles m.toProblem = .ok program →
      ∃ o, engine program = .ok o ∧ o.Answers program handles) :
    ∃ s, solveWith refuse numbered makeVariables engine m.solver m.toProblem = .ok s ∧
      ((∀ x ∈ m.vars, m.Uses x) → s.status = .optimal ∧
        ∀ name ∈ m.names, ∃ v, s.values.find? name.text = some v) ∧
      ((∃ x ∈ m.vars, ¬m.Uses x) → s.status = .abnormal ∧ s.values = []) := by
  obtain ⟨-, hs⟩ := isSound_of_build hb.isSound hm
  have hends := hasEnds_of_build hb.isSound hm
  obtain ⟨program, hp, -⟩ := Program.ofProblem_eq_ok hs (isBounded_of_build hb.isSound hm) hlen
  obtain ⟨o, ho, hanswers⟩ := hengine program hp
  have hsupported : (m.isMixedInteger && !m.solver.supportsIntegers) = false := by
    cases hmixed : m.isMixedInteger with
    | false => rfl
    | true => simp [hkinds hmixed]
  refine ⟨readOutcome numbered program o, ?_, fun huses => ?_, ?_⟩
  · unfold solveWith
    simp only [hsupported, Bool.false_eq_true, ↓reduceIte, hmake, ok_bind, hp, ho]
    rfl
  · obtain ⟨hstatus, hvalues⟩ :=
      readOutcome_of_uses numbered hs hlen hnodup hends hp hanswers huses
    refine ⟨hstatus, fun name hname => ?_⟩
    obtain ⟨x, hx, rfl⟩ := exists_handle hlen hname
    obtain ⟨v, -, hv⟩ := hvalues x hx
    exact ⟨v, hv⟩
  · rintro ⟨x, hx, hunused⟩
    exact readOutcome_of_not_uses numbered hs hlen hnodup hends hp hanswers hx hunused

/-- An optimal outcome with the given values; a handle that does not occur has none. -/
def optimalAt [DecidableEq ν] (objective : ℚ) (x : ν → ℚ) (program : Program ν Extended L) :
    Outcome ν Extended :=
  ⟨some "optimal", rational objective,
    fun h => if h ∈ program.occurring then some (rational (x h)) else none, []⟩

theorem optimalAt_answers [DecidableEq ν] (objective : ℚ) (x : ν → ℚ)
    (program : Program ν Extended L) (handles : List ν) :
    (optimalAt objective x program).Answers program handles where
  word := rfl
  values h _ := by
    unfold optimalAt
    by_cases hh : h ∈ program.occurring
    · simp [hh]
    · simp [hh]

/-- A solve by an engine that finds this outcome, with the given handles. -/
def solveOptimal [DecidableEq ν] (handles : List ν) (objective : ℚ) (x : ν → ℚ)
    (m : CompiledModel Extended String) : Except SolveFailure (Solution Extended String) :=
  solveWith id (fun label _ => label) (fun _ => .ok handles)
    (fun program => .ok (optimalAt objective x program)) m.solver m.toProblem

/-- The best values for the depot, which earn 38: it is open, with eight crates and a stock of
two. -/
def best : ℕ → ℚ
  | 1 => 1
  | 2 => 8
  | _ => 2

/-- The depot uses its three variables, so a solve is reported as optimal. -/
theorem depot_solves : ∃ m s, depot.build ⟨some .highs, rational 0⟩ = .ok m ∧
    m.isMixedInteger = true ∧ solveOptimal [1, 2, 3] 38 best m = .ok s ∧ s.status = .optimal ∧
    ∀ name ∈ m.names, ∃ v, s.values.find? name.text = some v := by
  have hbuilt : (depot.build ⟨some .highs, rational 0⟩).toOption.map (fun m =>
      (m.isMixedInteger, m.solver.supportsIntegers, decide (∀ x ∈ m.vars, m.Uses x)))
      = some (true, true, true) := by
    decide +kernel
  obtain ⟨m, hm, hbuilt⟩ := Option.map_eq_some_iff.mp hbuilt
  simp only [Prod.mk.injEq, decide_eq_true_iff] at hbuilt
  obtain ⟨hmixed, hsupported, huses⟩ := hbuilt
  have hm := toOption_eq_some.mp hm
  have hlen : [1, 2, 3].length = m.vars.length :=
    (vars_of_build depot_reachable.isSound hm).length_eq
  obtain ⟨s, hs, hoptimal, -⟩ : ∃ s, solveOptimal [1, 2, 3] 38 best m = .ok s ∧ _ ∧ _ :=
    solve_reports depot_reachable hm (fun _ => hsupported) rfl hlen (by decide)
      fun program _ => ⟨optimalAt 38 best program, rfl, optimalAt_answers 38 best program _⟩
  exact ⟨m, s, hm, hmixed, hs, hoptimal huses⟩

/-- The sample with a boolean variable that nothing mentions. -/
def idle : Builder Extended String := after (declare .boolean none none none) sample

theorem idle_reachable : idle.Reachable := .step sample_reachable (.declare _ _ _ _ _)

/-- The optimal value 2 of its other variable is reported as abnormal and lost, though the solver
supports both variables. -/
theorem idle_abnormal : idle.Reachable ∧ ∃ m s, idle.build ⟨some .highs, rational 0⟩ = .ok m ∧
    m.solver.supportsIntegers = true ∧
    (∀ program, Program.ofProblem [0, 1] m.toProblem = .ok program →
      (optimalAt 2 (fun _ => 2) program).Answers program [0, 1]) ∧
    solveOptimal [0, 1] 2 (fun _ => 2) m = .ok s ∧ s.status = .abnormal ∧ s.values = [] := by
  have hrun : ((idle.build ⟨some .highs, rational 0⟩).toOption.bind fun m =>
      (solveOptimal [0, 1] 2 (fun _ => 2) m).toOption.map fun s =>
        (m.solver.supportsIntegers, s.status, s.values.isEmpty))
      = some (true, .abnormal, true) := by
    decide +kernel
  obtain ⟨m, hm, hrun⟩ := Option.bind_eq_some_iff.mp hrun
  obtain ⟨s, hs, hrun⟩ := Option.map_eq_some_iff.mp hrun
  simp only [Prod.mk.injEq, List.isEmpty_iff] at hrun
  exact ⟨idle_reachable, m, s, toOption_eq_some.mp hm, hrun.1,
    fun program _ => optimalAt_answers 2 _ program _, toOption_eq_some.mp hs, hrun.2⟩

end Builder
end LinModel
