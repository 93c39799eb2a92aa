import LinModel.Proofs.Compiling.Normal
import LinModel.Proofs.Expression.Value

/-!
# Which names a builder may mention

A builder with all its parts compiles or names a variable that is not registered. The names of a
constraint are looked up in the difference of its sides. Merging keeps the names of both sides,
those of terms that cancel too, so an unregistered name is met there. There is one exception: two
single terms of one name with one coefficient have a difference without terms
(`Constraint.Cancels`), and the name they mention is never looked up. So a builder is refused if
its objective or a constraint that does not cancel mentions a name that is not registered, and only
then (`Builder.build_unknownVariable_iff`).

Key definitions: `Constraint.Cancels`, `Builder.Mentions`.
Key theorems: `Expression.mem_names_sub_of_merged`, `Expression.mem_names_sub_of_terms`,
`Constraint.mem_names_difference`, `compileConstraint_eq_error`,
`Builder.mem_names_of_build`, `Builder.build_eq_error`, `Builder.build_unknownVariable_iff`.
-/
namespace LinModel

open Extended

variable {K L : Type}

/-! ### Names of a difference -/

/-- Both sides are the same single term. -/
def Constraint.Cancels [Scalar K] (c : Constraint K L) : Prop :=
  ∃ name k, c.left.term? = some (name, k) ∧ c.right.term? = some (name, k)

theorem Expression.IsSound.exists_rational {e : Expression Extended} (h : e.IsSound)
    {name : VariableName} {k : Extended} (ht : e.term? = some (name, k)) : ∃ q, k = rational q := by
  have hfinite := h.finite
  rw [(Expression.of_term? ht).1] at hfinite
  exact hfinite.head

/-- A difference in which a side is not a single term is merged, and has the names of both. -/
theorem Expression.mem_names_sub_of_merged {left right delta : Expression Extended}
    (h : left.term? = none ∨ right.term? = none) (hdelta : left.sub right = .ok delta)
    (name : VariableName) : name ∈ delta.names ↔ name ∈ left.names ∨ name ∈ right.names := by
  have hmerged : Expression.ofCoefficients
      (Expression.mergeInto (-Scalar.one * ·) left.coefficients right.coefficients)
      (left.constant + -Scalar.one * right.constant) = .ok delta := by
    rw [Expression.sub, Expression.combine] at hdelta
    rcases h with h | h
    · rw [h] at hdelta
      exact hdelta
    · rw [h] at hdelta
      cases hl : left.term? with
      | none =>
        rw [hl] at hdelta
        exact hdelta
      | some term =>
        rw [hl] at hdelta
        exact hdelta
  obtain ⟨rfl, -, -⟩ := Expression.ofCoefficients_eq_ok.mp hmerged
  exact (Expression.mergeInto_keys _ _ _).1 name

/-- A difference of two single terms has their names, unless they are one term. -/
theorem Expression.mem_names_sub_of_terms {left right delta : Expression Extended}
    {m n : VariableName} {a b : ℚ} (hl : left.term? = some (m, rational a))
    (hr : right.term? = some (n, rational b)) (hdelta : left.sub right = .ok delta)
    (name : VariableName) :
    name ∈ delta.names ↔ ¬(m = n ∧ a = b) ∧ (name = m ∨ name = n) := by
  rw [Expression.sub, Expression.combine] at hdelta
  simp only [hl, hr] at hdelta
  by_cases hmn : m = n
  · subst hmn
    have hsum : rational a + -Scalar.one * rational b = rational (a - b) := by
      rw [scalar_one, rational_neg, rational_mul, rational_add]
      ring_nf
    rw [if_pos rfl, hsum, Expression.ofTermOrEmpty, scalar_zero, beq_rational] at hdelta
    by_cases hab : a = b
    · rw [if_pos (by simpa [sub_eq_zero] using hab)] at hdelta
      cases hdelta
      simp [hab, Expression.empty, Expression.names, Expression.coefficients]
    · rw [if_neg (by simpa [sub_eq_zero] using hab)] at hdelta
      cases hdelta
      simp [hab, Expression.names, Expression.coefficients]
  · rw [if_neg hmn] at hdelta
    obtain ⟨rfl, -, -⟩ := Expression.ofCoefficients_eq_ok.mp hdelta
    simp [hmn, Expression.names, Expression.coefficients]

theorem Constraint.not_cancels [Scalar K] {c : Constraint K L}
    (h : c.left.term? = none ∨ c.right.term? = none) : ¬c.Cancels := by
  rintro ⟨name, k, hl, hr⟩
  rcases h with h | h
  · rw [h] at hl
    cases hl
  · rw [h] at hr
    cases hr

theorem Constraint.cancels_iff {c : Constraint Extended L} {m n : VariableName} {a b : ℚ}
    (hl : c.left.term? = some (m, rational a)) (hr : c.right.term? = some (n, rational b)) :
    c.Cancels ↔ m = n ∧ a = b := by
  unfold Cancels
  rw [hl, hr]
  simp only [Option.some.injEq, Prod.mk.injEq]
  constructor
  · rintro ⟨x, k, ⟨rfl, rfl⟩, hn, hb⟩
    cases hb
    exact ⟨hn.symm, rfl⟩
  · rintro ⟨rfl, rfl⟩
    exact ⟨m, _, ⟨rfl, rfl⟩, rfl, rfl⟩

/-- **A difference has the names of both sides, unless the sides cancel.** -/
theorem Constraint.mem_names_difference {c : Constraint Extended L} (h : c.IsSound)
    {delta : Expression Extended} (hdelta : c.difference = .ok delta) (name : VariableName) :
    name ∈ delta.names ↔ ¬c.Cancels ∧ (name ∈ c.left.names ∨ name ∈ c.right.names) := by
  by_cases hterms : c.left.term? = none ∨ c.right.term? = none
  · rw [and_iff_right (not_cancels hterms)]
    exact Expression.mem_names_sub_of_merged hterms hdelta name
  · obtain ⟨hl, hr⟩ := not_or.mp hterms
    obtain ⟨⟨m, a⟩, hl⟩ := Option.ne_none_iff_exists'.mp hl
    obtain ⟨⟨n, b⟩, hr⟩ := Option.ne_none_iff_exists'.mp hr
    obtain ⟨a, rfl⟩ := h.left.exists_rational hl
    obtain ⟨b, rfl⟩ := h.right.exists_rational hr
    have hnames : c.left.names = [m] ∧ c.right.names = [n] := by
      unfold Expression.names
      rw [(Expression.of_term? hl).1, (Expression.of_term? hr).1]
      exact ⟨rfl, rfl⟩
    rw [cancels_iff hl hr, hnames.1, hnames.2, List.mem_singleton, List.mem_singleton]
    exact Expression.mem_names_sub_of_terms hl hr hdelta name

/-! ### Failures -/

theorem nonzeroCoefficients_eq_error [Scalar K] {known : List VariableName} {place : Place K L}
    {cs : Coefficients K} {e : CompileError K L}
    (h : nonzeroCoefficients known place cs = .error e) :
    ∃ name ∈ cs.keys, name ∉ known ∧ e = .unknownVariable name place := by
  obtain ⟨⟨name, value⟩, hmem, hstep⟩ := exists_of_collect_eq_error h
  by_cases hname : name ∈ known
  · simp [hname] at hstep
  · simp only [List.contains_eq_mem, hname, decide_false, Bool.false_eq_true, ↓reduceIte,
      Except.error.injEq] at hstep
    exact ⟨name, List.mem_map_of_mem (f := Prod.fst) hmem, hname, hstep.symm⟩

/-- A sound constraint that does not compile mentions a name that is not known, and does not
cancel. -/
theorem compileConstraint_eq_error {known : List VariableName} {c : Constraint Extended L}
    {label : Option L} {e : CompileError Extended L} (hc : c.IsSound)
    (h : compileConstraint known c label = .error e) :
    ∃ name place, e = .unknownVariable name place ∧ name ∉ known ∧ ¬c.Cancels ∧
      (name ∈ c.left.names ∨ name ∈ c.right.names) := by
  obtain ⟨delta, hdelta, -⟩ := Expression.computes_sub hc.left hc.right
  have hdifference : c.difference = .ok delta := hdelta
  rw [compileConstraint, hdifference, ok_mapError, ok_bind] at h
  rcases bind_eq_error.mp h with h | ⟨cs, -, h⟩
  · obtain ⟨name, hname, hunknown, rfl⟩ := nonzeroCoefficients_eq_error h
    exact ⟨name, _, rfl, hunknown, (Constraint.mem_names_difference hc hdifference name).mp hname⟩
  · cases h

theorem compileObjective_eq_error [Scalar K] {known : List VariableName} {o : Objective K}
    {e : CompileError K L} (h : compileObjective known o = .error e) :
    ∃ name place, e = .unknownVariable name place ∧ name ∉ known ∧ name ∈ o.expression.names := by
  rw [compileObjective] at h
  rcases bind_eq_error.mp h with h | ⟨cs, -, h⟩
  · obtain ⟨name, hname, hunknown, rfl⟩ := nonzeroCoefficients_eq_error h
    exact ⟨name, _, rfl, hunknown, hname⟩
  · cases h

namespace Builder

/-- A name occurs in the objective, or in a constraint that does not cancel. -/
def Mentions [Scalar K] (b : Builder K L) (name : VariableName) : Prop :=
  (∃ c ∈ b.constraints, ¬c.Cancels ∧ (name ∈ c.left.names ∨ name ∈ c.right.names)) ∨
    ∃ o, b.objective = some o ∧ name ∈ o.expression.names

variable {b : Builder Extended L} {settings : Settings Extended}

/-- A builder that compiles mentions registered names only. -/
theorem mem_names_of_build (hb : b.IsSound) {m : CompiledModel Extended L}
    (hm : b.build settings = .ok m) {name : VariableName} (hname : b.Mentions name) :
    name ∈ b.names := by
  obtain ⟨-, -, -, -, hcs, o, ho, ho'⟩ := compile_eq_ok.mp (build_eq_ok.mp hm).1
  rcases hname with ⟨c, hc, hmentions⟩ | ⟨o', hobjective, hmentions⟩
  · obtain ⟨c', -, hc'⟩ := exists_mem_of_forall₂ hcs.flip hc
    obtain ⟨delta, hdelta, hknown, -⟩ := compileConstraint_eq_ok.mp hc'
    exact hknown ((Constraint.mem_names_difference (hb.constraints c hc) hdelta name).mpr hmentions)
  · cases ho.symm.trans hobjective
    exact (compileObjective_eq_ok.mp ho').1 hmentions

section Complete

variable (hb : b.IsSound) (hvars : b.vars ≠ []) (hconstraints : b.constraints ≠ [])
  (hobjective : b.objective ≠ none) (hsolver : settings.solver ≠ none)

include hb hvars hconstraints hobjective hsolver

/-- A builder with all its parts that does not compile mentions a name that is not registered. -/
theorem build_eq_error {e : BuildError Extended L} (h : b.build settings = .error e) :
    ∃ name place, e = .compile (.unknownVariable name place) ∧ b.Mentions name ∧
      name ∉ b.names := by
  obtain ⟨o, ho⟩ := Option.ne_none_iff_exists'.mp hobjective
  obtain ⟨solver, hs⟩ := Option.ne_none_iff_exists'.mp hsolver
  have hcompile : b.compile settings.solver = .error e := by
    rcases bind_eq_error.mp h with h | ⟨p, -, h⟩
    · exact h
    · cases h
  simp only [compile, ho, hs, List.isEmpty_iff, hvars, hconstraints, ↓reduceIte] at hcompile
  rcases bind_eq_error.mp hcompile with h | ⟨cs, -, h⟩
  · obtain ⟨e, he, rfl⟩ := mapError_eq_error.mp h
    obtain ⟨c, hc, he⟩ := exists_of_mapM_eq_error he
    obtain ⟨name, place, rfl, hunknown, hmentions⟩ :=
      compileConstraint_eq_error (hb.constraints c hc) he
    exact ⟨name, place, rfl, .inl ⟨c, hc, hmentions⟩, hunknown⟩
  · rcases bind_eq_error.mp h with h | ⟨o', -, h⟩
    · obtain ⟨e, he, rfl⟩ := mapError_eq_error.mp h
      obtain ⟨name, place, rfl, hunknown, hmentions⟩ := compileObjective_eq_error he
      exact ⟨name, place, rfl, .inr ⟨o, ho, hmentions⟩, hunknown⟩
    · cases h

/-- A builder with all its parts is refused for an unknown name if it mentions one that is not
registered. -/
theorem exists_unknownVariable_iff :
    (∃ name place, b.build settings = .error (.compile (.unknownVariable name place))) ↔
      ∃ name, b.Mentions name ∧ name ∉ b.names := by
  constructor
  · rintro ⟨name, place, h⟩
    obtain ⟨name', -, -, hmentions⟩ := build_eq_error hb hvars hconstraints hobjective hsolver h
    exact ⟨name', hmentions⟩
  · rintro ⟨name, hmentions, hunknown⟩
    cases h : b.build settings with
    | ok m => exact absurd (mem_names_of_build hb h hmentions) hunknown
    | error e =>
      obtain ⟨name', place, rfl, -⟩ := build_eq_error hb hvars hconstraints hobjective hsolver h
      exact ⟨name', place, rfl⟩

end Complete

/-- **Building refuses unknown names.** A builder that is reached and has variables, constraints,
an objective and a solver is refused for an unknown name if and only if its objective, or a
constraint whose sides are not the same single term, mentions a name that is not registered;
otherwise it builds. -/
theorem build_unknownVariable_iff (hb : b.Reachable) (hvars : b.vars ≠ [])
    (hconstraints : b.constraints ≠ []) (hobjective : b.objective ≠ none)
    (hsolver : settings.solver ≠ none) :
    ((∃ name place, b.build settings = .error (.compile (.unknownVariable name place))) ↔
        ∃ name, b.Mentions name ∧ name ∉ b.names) ∧
      ((¬∃ name, b.Mentions name ∧ name ∉ b.names) → ∃ m, b.build settings = .ok m) := by
  have hs := hb.isSound
  refine ⟨exists_unknownVariable_iff hs hvars hconstraints hobjective hsolver, fun hknown => ?_⟩
  cases h : b.build settings with
  | ok m => exact ⟨m, rfl⟩
  | error e =>
    obtain ⟨name, -, -, hmentions⟩ := build_eq_error hs hvars hconstraints hobjective hsolver h
    exact absurd ⟨name, hmentions⟩ hknown

/-- A variable `x1` to be made small, and a constraint that some expression is at most `x2`, which
is not registered. -/
def stray (left : Expression Extended) : Builder Extended String :=
  let declared := after (declare .numeric none none none) empty
  let related := after (relate (.expression left)
    (.expression (.term (.automatic 2) (rational 1))) .le none) declared
  after (setObjective (.expression (.term (.automatic 1) (rational 1))) .min) related

theorem stray_reachable {left : Expression Extended} (h : left.IsSound) :
    (stray left).Reachable := by
  have hterm : ∀ n, (Operand.expression (.term (.automatic n) (rational 1))).IsSound := fun n =>
    .expression (Expression.isSound_term _ 1)
  exact .step (.step (.step (.refl _) (.declare _ _ _ _ _))
    (.relate _ (.expression h) (hterm 2) _ _)) (.setObjective _ (hterm 1) _)

/-- `x2` as a linear form on the left keeps its name in the difference, and is refused. -/
theorem stray_refused : ∃ name place,
    (stray (.linear [(.automatic 2, rational 1)] (rational 0))).build ⟨some .highs, rational 0⟩
      = .error (.compile (.unknownVariable name place)) := by
  have hform : (Expression.linear [(.automatic 2, rational 1)] (rational 0)).IsSound :=
    ⟨by simp [Coefficients.AreFinite, Expression.coefficients], rfl, List.nodup_singleton _⟩
  refine (build_unknownVariable_iff (stray_reachable hform) (List.cons_ne_nil _ _)
    (List.cons_ne_nil _ _) (Option.some_ne_none _) (Option.some_ne_none _)).1.mpr ?_
  refine ⟨.automatic 2, .inl ⟨_, List.mem_cons_self, ?_, .inr List.mem_cons_self⟩, ?_⟩
  · rintro ⟨name, k, h, -⟩
    cases h
  · decide

/-- `x2` as a single term on the left cancels: the builder mentions a name that is not registered,
and builds. -/
theorem stray_builds : (stray (.term (.automatic 2) (rational 1))).Reachable ∧
    (∃ c ∈ (stray (.term (.automatic 2) (rational 1))).constraints,
      ∃ name ∈ c.left.names, name ∉ (stray (.term (.automatic 2) (rational 1))).names) ∧
    ∃ m, (stray (.term (.automatic 2) (rational 1))).build ⟨some .highs, rational 0⟩ = .ok m := by
  have hok : ((stray (.term (.automatic 2) (rational 1))).build
      ⟨some .highs, rational 0⟩).isOk = true := by decide +kernel
  refine ⟨stray_reachable (Expression.isSound_term _ 1),
    ⟨_, List.mem_cons_self, _, List.mem_cons_self, ?_⟩, exists_of_isOk hok⟩
  decide

end Builder
end LinModel
