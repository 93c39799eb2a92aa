import LinModel.Proofs.Builder.Reachable

/-!
# When a model compiles, and to what

A constraint compiles to the nonzero terms of the difference of its sides if that difference
exists and all its names are known, an objective to its nonzero terms if its names are known, and
a builder to its parts, one by one and in order, if none is missing and all compile. What a sound
builder compiles to is sound: its numbers are finite but for bounds, and its names are those of
its variables, none repeated.

Key definitions: `Coefficients.nonzero`, `Coefficients.AreOver`, `Problem.IsSound`.
Key theorems: `nonzeroCoefficients_eq_ok`, `compileConstraint_eq_ok`, `compileObjective_eq_ok`,
`Builder.compile_eq_ok`, `Builder.build_eq_ok`, `Builder.isSound_of_build`.
-/
namespace LinModel

variable {K L : Type} [Scalar K]

/-- The terms with a coefficient other than zero. -/
def Coefficients.nonzero (cs : Coefficients K) : Coefficients K :=
  List.filter (fun entry => !Scalar.beq entry.2 Scalar.zero) cs

/-- Finite coefficients of known names, none repeated. -/
structure Coefficients.AreOver (cs : Coefficients K) (known : List VariableName) : Prop where
  finite : cs.AreFinite
  known : cs.keys ⊆ known
  nodup : cs.keys.Nodup

/-- The terms of a sound expression are sound without those that are zero. -/
theorem Expression.IsSound.areOver {e : Expression K} (h : e.IsSound) {known : List VariableName}
    (hk : e.names ⊆ known) : e.coefficients.nonzero.AreOver known where
  finite entry hentry := h.finite entry (List.mem_of_mem_filter hentry)
  known := List.Subset.trans (List.map_subset _ (List.filter_subset_self _)) hk
  nodup := h.nodup.sublist (List.filter_sublist.map _)

/-- Different variables, and finite terms over them. -/
structure Problem.IsSound (p : Problem K L) : Prop where
  names_nodup : p.names.Nodup
  constraints : ∀ c ∈ p.constraints, c.coefficients.AreOver p.names
  objective : p.objective.coefficients.AreOver p.names
  offset : Scalar.isFinite p.objective.offset = true

theorem nonzeroCoefficients_eq_ok {known : List VariableName} {place : Place K L}
    {cs cs' : Coefficients K} :
    nonzeroCoefficients known place cs = .ok cs' ↔ cs.keys ⊆ known ∧ cs' = cs.nonzero := by
  have hstep : ∀ (entry : VariableName × K) (r : Option (VariableName × K)),
      (if known.contains entry.1 then
          .ok (if Scalar.beq entry.2 Scalar.zero then none else some (entry.1, entry.2))
        else .error (.unknownVariable entry.1 place) : Except (CompileError K L) _) = .ok r ↔
      entry.1 ∈ known ∧ r = if !Scalar.beq entry.2 Scalar.zero then some (id entry) else none := by
    rintro ⟨name, value⟩ r
    by_cases hname : name ∈ known
    · simp only [List.contains_eq_mem, hname, decide_true, ↓reduceIte, Except.ok.injEq, true_and]
      cases Scalar.beq value Scalar.zero <;> simp [eq_comm]
    · simp [hname]
  have hkeys : cs.keys ⊆ known ↔ ∀ entry ∈ cs, entry.1 ∈ known := List.forall_mem_map
  rw [nonzeroCoefficients, collect_eq_ok hstep, List.map_id, hkeys]
  rfl

/-- A constraint compiles if its difference exists and has known names only. -/
theorem compileConstraint_eq_ok {known : List VariableName} {c : Constraint K L}
    {label : Option L} {c' : CompiledConstraint K L} :
    compileConstraint known c label = .ok c' ↔
      ∃ delta, c.difference = .ok delta ∧ delta.names ⊆ known ∧
        c' = ⟨label.or c.label, delta.coefficients.nonzero,
          (c.relationship.range (-delta.constant)).1,
          (c.relationship.range (-delta.constant)).2⟩ := by
  unfold compileConstraint
  simp only [bind_eq_ok, mapError_eq_ok, nonzeroCoefficients_eq_ok]
  constructor
  · rintro ⟨delta, hdelta, cs, ⟨hknown, rfl⟩, h⟩
    cases h
    exact ⟨delta, hdelta, hknown, rfl⟩
  · rintro ⟨delta, hdelta, hknown, rfl⟩
    exact ⟨delta, hdelta, _, ⟨hknown, rfl⟩, rfl⟩

theorem compileObjective_eq_ok {known : List VariableName} {o : Objective K}
    {o' : CompiledObjective K} :
    compileObjective (L := L) known o = .ok o' ↔
      o.expression.names ⊆ known ∧
        o' = ⟨o.expression.coefficients.nonzero, o.goal, o.expression.constant⟩ := by
  unfold compileObjective
  simp only [bind_eq_ok, nonzeroCoefficients_eq_ok]
  constructor
  · rintro ⟨cs, ⟨hknown, rfl⟩, h⟩
    cases h
    exact ⟨hknown, rfl⟩
  · rintro ⟨hknown, rfl⟩
    exact ⟨_, ⟨hknown, rfl⟩, rfl⟩

namespace Builder

variable {b : Builder K L}

/-- A builder compiles if no part is missing and every part compiles. -/
theorem compile_eq_ok {σ : Type} {solver : Option σ} {p : Problem K L} {chosen : σ} :
    b.compile solver = .ok (p, chosen) ↔
      b.vars ≠ [] ∧ b.constraints ≠ [] ∧ solver = some chosen ∧
        p.vars = b.vars.map compileVariable ∧
        List.Forall₂ (fun c c' => compileConstraint b.names c none = .ok c')
          b.constraints p.constraints ∧
        ∃ o, b.objective = some o ∧ compileObjective (L := L) b.names o = .ok p.objective := by
  unfold compile
  by_cases hvars : b.vars = []
  · simp [hvars]
  by_cases hconstraints : b.constraints = []
  · simp [hvars, hconstraints]
  cases ho : b.objective with
  | none => simp [hvars, hconstraints]
  | some o =>
    cases solver with
    | none => simp [hvars, hconstraints]
    | some s =>
      simp only [List.isEmpty_iff, hvars, hconstraints, ↓reduceIte, bind_eq_ok, mapError_eq_ok,
        mapM_eq_ok]
      constructor
      · rintro ⟨cs, hcs, o', ho', h⟩
        cases h
        exact ⟨hvars, hconstraints, rfl, rfl, hcs, o, rfl, ho'⟩
      · rintro ⟨-, -, ⟨⟩, hvs, hcs, _, ⟨⟩, ho'⟩
        refine ⟨_, hcs, _, ho', ?_⟩
        rw [← hvs]
        rfl

theorem build_eq_ok {settings : Settings K} {m : CompiledModel K L} :
    b.build settings = .ok m ↔
      b.compile settings.solver = .ok (m.toProblem, m.solver) ∧
        m.tolerance = settings.tolerance := by
  unfold build
  rw [bind_eq_ok]
  constructor
  · rintro ⟨⟨p, s⟩, hp, h⟩
    cases h
    exact ⟨hp, rfl⟩
  · rintro ⟨hp, ht⟩
    refine ⟨_, hp, ?_⟩
    rw [← ht]
    rfl

/-- A sound builder compiles to a sound problem over its names. -/
theorem isSound_of_build [Scalar.LawfulUnits K] (hb : b.IsSound) {settings : Settings K}
    {m : CompiledModel K L} (hm : b.build settings = .ok m) :
    m.names = b.names ∧ m.toProblem.IsSound := by
  obtain ⟨-, -, -, hvars, hconstraints, o, ho, ho'⟩ := compile_eq_ok.mp (build_eq_ok.mp hm).1
  have hnames : m.names = b.names := by
    have hname : ∀ x : Variable K, (compileVariable x).name = x.name := fun x => by
      unfold compileVariable
      cases x.kind <;> rfl
    simp [Problem.names, names, hvars, hname]
  obtain ⟨hknown, hcompiled⟩ := compileObjective_eq_ok.mp ho'
  refine ⟨hnames, ?_, fun c' hc' => ?_, ?_, ?_⟩
  · rw [hnames]
    exact hb.names_nodup
  · obtain ⟨c, hc, hcompile⟩ := exists_mem_of_forall₂ hconstraints hc'
    obtain ⟨delta, hdelta, hdeltaKnown, rfl⟩ := compileConstraint_eq_ok.mp hcompile
    have hs := (Expression.keeps_combine _ (hb.constraints c hc).left delta hdelta).1
    rw [hnames]
    exact hs.areOver hdeltaKnown
  · rw [hnames, hcompiled]
    exact (hb.objective o ho).areOver hknown
  · rw [hcompiled]
    exact (hb.objective o ho).finite_constant

end Builder
end LinModel
