import LinModel.Proofs.Builder.Reachable
import LinModel.Proofs.Compiling.Normal
import LinModel.Proofs.Expression.Value

/-!
# Building preserves the meaning of a model

A point satisfies a builder if every registered constraint holds there as written and every
variable admits its value; it satisfies a problem if the terms of every compiled constraint lie in
their range and every compiled variable admits its value. For a builder that is reached and builds,
the two agree, constraint by constraint and variable by variable, and the objective has the same
direction and the same value everywhere.

A constraint compiles to a range on the terms of the difference of its sides, without their
constant, which crosses the relation with its sign changed (`Relationship.range_iff`); the terms
left out have coefficient zero (`Coefficients.termsAt_nonzero`).

Key definitions: `VariableKind.Admits`, `Builder.SatisfiedAt`, `Problem.SatisfiedAt`,
`CompiledConstraint.HoldsAt`, `CompiledObjective.valueAt`.
Key theorems: `compileConstraint_holdsAt`, `compileObjective_valueAt`,
`Builder.build_preserves_meaning`.
-/
namespace LinModel

open Extended

variable {L : Type}

/-! ### What models say -/

/-- The values of a kind: booleans are zero or one. -/
def VariableKind.Admits (q : ℚ) : VariableKind → Prop
  | .boolean => q = 0 ∨ q = 1
  | .integer => ∃ n : ℤ, q = n
  | .numeric => True

/-- The value of a variable is of its kind and within its bounds. -/
def Variable.AdmitsAt (x : Variable Extended) (v : Point) : Prop :=
  x.kind.Admits (v x.name) ∧ Scalar.le x.lower (rational (v x.name)) = true ∧
    Scalar.le (rational (v x.name)) x.upper = true

/-- Every constraint holds as written, and every variable admits its value. -/
def Builder.SatisfiedAt (b : Builder Extended L) (v : Point) : Prop :=
  (∀ c ∈ b.constraints, c.HoldsAt v) ∧ ∀ x ∈ b.vars, x.AdmitsAt v

/-- The value of a variable is of its kind and within its bounds. -/
def CompiledVariable.AdmitsAt (x : CompiledVariable Extended) (v : Point) : Prop :=
  x.kind.Admits (v x.name) ∧ Scalar.le x.lower (rational (v x.name)) = true ∧
    Scalar.le (rational (v x.name)) x.upper = true

/-- The sum of terms, from zero. -/
def Coefficients.activityAt (cs : Coefficients Extended) (v : Point) : Extended :=
  (Expression.linear cs Scalar.zero).valueAt v

/-- The terms add up to a number in the range. -/
def CompiledConstraint.HoldsAt (c : CompiledConstraint Extended L) (v : Point) : Prop :=
  Scalar.le c.lower (c.coefficients.activityAt v) = true ∧
    Scalar.le (c.coefficients.activityAt v) c.upper = true

/-- The sum of the terms and the offset. -/
def CompiledObjective.valueAt (o : CompiledObjective Extended) (v : Point) : Extended :=
  o.coefficients.activityAt v + o.offset

/-- The terms of every constraint are in its range, and every variable admits its value. -/
def Problem.SatisfiedAt (p : Problem Extended L) (v : Point) : Prop :=
  (∀ c ∈ p.constraints, c.HoldsAt v) ∧ ∀ x ∈ p.vars, x.AdmitsAt v

/-! ### Terms and ranges -/

namespace Coefficients

variable {cs : Coefficients Extended} (v : Point)

theorem activityAt_eq (h : cs.AreFinite) : cs.activityAt v = rational (cs.termsAt v) := by
  rw [activityAt, Expression.valueAt, Expression.evaluate_eq_foldl]
  exact (foldl_terms v cs h 0).trans (by rw [zero_add])

theorem termsAt_nonzero : ∀ {cs : Coefficients Extended}, cs.AreFinite →
    cs.nonzero.termsAt v = cs.termsAt v
  | [], _ => rfl
  | (name, c) :: cs, h => by
    obtain ⟨q, rfl⟩ := h.head
    have ih := termsAt_nonzero h.tail
    by_cases hq : q = 0
    · have hskip : nonzero ((name, rational q) :: cs) = nonzero cs := by simp [nonzero, hq]
      rw [hskip, ih, termsAt_cons, toRat_rational, hq]
      ring
    · have hkeep : nonzero ((name, rational q) :: cs) = (name, rational q) :: nonzero cs := by
        simp [nonzero, hq]
      rw [hkeep, termsAt_cons, termsAt_cons, ih]

end Coefficients

/-- A number is in the range of a relationship if it relates to the bound. -/
theorem Relationship.range_iff (bound a : ℚ) : ∀ r : Relationship,
    (Scalar.le (r.range (rational bound)).1 (rational a) = true ∧
      Scalar.le (rational a) (r.range (rational bound)).2 = true) ↔ r.Relates a bound
  | .le => by simp [range, Relates]
  | .eq => by
    simp only [range, le_rational, decide_eq_true_eq, Relates]
    exact ⟨fun h => le_antisymm h.2 h.1, fun h => ⟨h.ge, h.le⟩⟩
  | .ge => by simp [range, Relates]

theorem Relationship.relates_sub (x y k : ℚ) : ∀ r : Relationship,
    r.Relates (x - y - k) (-k) ↔ r.Relates x y
  | .le => by simp [Relates]
  | .eq => by simp [Relates, sub_eq_zero]
  | .ge => by simp [Relates]

/-! ### The parts of a model -/

/-- The terms of a compiled constraint are the difference of the sides but for a constant, which
is the bound with its sign changed. -/
theorem compileConstraint_terms {known : List VariableName} {c : Constraint Extended L}
    {label : Option L} {c' : CompiledConstraint Extended L} (h : c.IsSound)
    (hc : compileConstraint known c label = .ok c') :
    ∃ k : ℚ, c'.lower = (c.relationship.range (rational (-k))).1 ∧
      c'.upper = (c.relationship.range (rational (-k))).2 ∧
      ∀ v, c'.coefficients.activityAt v
        = rational (c.left.exactAt v - c.right.exactAt v - k) := by
  obtain ⟨delta, hdelta, hknown, rfl⟩ := compileConstraint_eq_ok.mp hc
  have hs := (Expression.keeps_combine _ h.left delta hdelta).1
  obtain ⟨e, he, hv⟩ := Expression.computes_sub h.left h.right
  cases hdelta.symm.trans he
  obtain ⟨k, hk⟩ := isFinite_iff.mp hs.finite_constant
  refine ⟨k, by rw [hk]; rfl, by rw [hk]; rfl, fun v => ?_⟩
  have hsum : delta.coefficients.termsAt v + k = c.left.exactAt v - c.right.exactAt v := by
    have hdelta := hv v
    rwa [Expression.exactAt, hk, toRat_rational] at hdelta
  rw [Coefficients.activityAt_eq v (hs.areOver hknown).finite,
    Coefficients.termsAt_nonzero v hs.finite, ← hsum, add_sub_cancel_right]

/-- **A compiled constraint holds where the constraint does.** -/
theorem compileConstraint_holdsAt {known : List VariableName} {c : Constraint Extended L}
    {label : Option L} {c' : CompiledConstraint Extended L} (h : c.IsSound)
    (hc : compileConstraint known c label = .ok c') (v : Point) : c.HoldsAt v ↔ c'.HoldsAt v := by
  obtain ⟨k, hlower, hupper, hterms⟩ := compileConstraint_terms h hc
  rw [Constraint.holdsAt_iff h.left h.right, CompiledConstraint.HoldsAt, hlower, hupper, hterms,
    Relationship.range_iff, Relationship.relates_sub]

/-- **A compiled objective has the value of the objective.** -/
theorem compileObjective_valueAt {known : List VariableName} {o : Objective Extended}
    {o' : CompiledObjective Extended} (h : o.expression.IsSound)
    (ho : compileObjective (L := L) known o = .ok o') (v : Point) :
    o'.valueAt v = o.expression.valueAt v := by
  obtain ⟨hknown, rfl⟩ := compileObjective_eq_ok.mp ho
  obtain ⟨k, hk⟩ := isFinite_iff.mp h.finite_constant
  rw [CompiledObjective.valueAt, Expression.valueAt_eq h]
  simp only
  rw [Coefficients.activityAt_eq v (h.areOver hknown).finite,
    Coefficients.termsAt_nonzero v h.finite, hk, rational_add, Expression.exactAt, hk,
    toRat_rational]

/-- A compiled variable is the variable: the bounds of booleans are zero and one already. -/
theorem compileVariable_eq {x : Variable Extended} (h : x.IsSound) :
    compileVariable x = ⟨x.name, x.kind, x.lower, x.upper⟩ := by
  unfold compileVariable
  cases hk : x.kind with
  | boolean =>
    obtain ⟨hl, hu⟩ := h.boolean hk
    simp [hl, hu]
  | integer => rfl
  | numeric => rfl

theorem Variable.IsSound.isNaN {x : Variable Extended} (h : x.IsSound) :
    Scalar.isNaN x.lower = false ∧ Scalar.isNaN x.upper = false := by
  by_cases hk : x.kind = .boolean
  · rw [(h.boolean hk).1, (h.boolean hk).2]
    exact ⟨rfl, rfl⟩
  · exact ⟨(h.ordered hk).1, (h.ordered hk).2.1⟩

/-! ### The whole model -/

/-- All bounds are numbers. Ranges are not empty by an infinity, and booleans are bounded by zero
and one. -/
structure Problem.IsBounded (p : Problem Extended L) : Prop where
  constraints : ∀ c ∈ p.constraints, Scalar.isNaN c.lower = false ∧ Scalar.isNaN c.upper = false ∧
    c.lower ≠ infinite false ∧ c.upper ≠ infinite true
  vars : ∀ x ∈ p.vars, Scalar.isNaN x.lower = false ∧ Scalar.isNaN x.upper = false ∧
    (x.kind = .boolean → x.lower = rational 0 ∧ x.upper = rational 1)

/-- What a compiled variable has in common with the variable. -/
structure CompiledVariable.Matches (x : Variable Extended) (x' : CompiledVariable Extended) :
    Prop where
  name : x'.name = x.name
  kind : x'.kind = x.kind
  lower : x'.lower = x.lower
  upper : x'.upper = x.upper

theorem CompiledVariable.Matches.admitsAt {x : Variable Extended}
    {x' : CompiledVariable Extended} (h : Matches x x') (v : Point) :
    x.AdmitsAt v ↔ x'.AdmitsAt v := by
  rw [Variable.AdmitsAt, CompiledVariable.AdmitsAt, h.name, h.kind, h.lower, h.upper]

/-- What a compiled constraint has in common with the constraint. -/
structure CompiledConstraint.Matches (c : Constraint Extended L)
    (c' : CompiledConstraint Extended L) : Prop where
  label : c'.label = c.label
  holdsAt : ∀ v, c.HoldsAt v ↔ c'.HoldsAt v

namespace Builder

variable {b : Builder Extended L} {settings : Settings Extended} {m : CompiledModel Extended L}

theorem vars_of_build (hb : b.IsSound) (hm : b.build settings = .ok m) :
    List.Forall₂ CompiledVariable.Matches b.vars m.vars := by
  obtain ⟨-, -, -, hvars, -⟩ := compile_eq_ok.mp (build_eq_ok.mp hm).1
  rw [hvars, List.forall₂_map_right_iff, List.forall₂_same]
  intro x hx
  rw [compileVariable_eq (hb.vars x hx)]
  exact ⟨rfl, rfl, rfl, rfl⟩

/-- The constraints of a model are compiled from those of its builder, which are sound. -/
theorem constraints_of_build (hb : b.IsSound) (hm : b.build settings = .ok m) :
    List.Forall₂ (fun c c' => c.IsSound ∧ compileConstraint b.names c none = .ok c')
      b.constraints m.constraints := by
  obtain ⟨-, -, -, -, hconstraints, -⟩ := compile_eq_ok.mp (build_eq_ok.mp hm).1
  exact (List.forall₂_and_left _ _).mpr ⟨hb.constraints, hconstraints⟩

theorem isBounded_of_build (hb : b.IsSound) (hm : b.build settings = .ok m) :
    m.toProblem.IsBounded where
  constraints c' hc' := by
    obtain ⟨c, -, hc, hcompile⟩ := exists_mem_of_forall₂ (constraints_of_build hb hm) hc'
    obtain ⟨k, hlower, hupper, -⟩ := compileConstraint_terms hc hcompile
    rw [hlower, hupper]
    cases c.relationship <;> exact ⟨rfl, rfl, nofun, nofun⟩
  vars x' hx' := by
    obtain ⟨x, hx, h⟩ := exists_mem_of_forall₂ (vars_of_build hb hm) hx'
    rw [h.lower, h.upper, h.kind]
    exact ⟨(hb.vars x hx).isNaN.1, (hb.vars x hx).isNaN.2, (hb.vars x hx).boolean⟩

/-- **Building preserves the meaning of a model.** For a builder that is reached and builds, the
same points satisfy it and its model, the objective has the same direction and value, and the
variables and the constraints correspond one for one in the order of registration. -/
theorem build_preserves_meaning (hb : b.Reachable) (hm : b.build settings = .ok m) :
    (∀ v, b.SatisfiedAt v ↔ m.SatisfiedAt v) ∧
      (∃ o, b.objective = some o ∧ m.objective.goal = o.goal ∧
        ∀ v, m.objective.valueAt v = o.expression.valueAt v) ∧
      List.Forall₂ CompiledVariable.Matches b.vars m.vars ∧
      List.Forall₂ CompiledConstraint.Matches b.constraints m.constraints := by
  have hs := hb.isSound
  obtain ⟨-, -, -, -, -, o, ho, ho'⟩ := compile_eq_ok.mp (build_eq_ok.mp hm).1
  have hv := vars_of_build hs hm
  have hc : List.Forall₂ CompiledConstraint.Matches b.constraints m.constraints := by
    refine (constraints_of_build hs hm).imp fun c c' h => ⟨?_, compileConstraint_holdsAt h.1 h.2⟩
    obtain ⟨delta, -, -, hc'⟩ := compileConstraint_eq_ok.mp h.2
    rw [hc', Option.none_or]
  refine ⟨fun v => ?_, ⟨o, ho, ?_, fun v => ?_⟩, hv, hc⟩
  · exact and_congr (forall_mem_congr hc fun c c' h => h.holdsAt v)
      (forall_mem_congr hv fun x x' h => h.admitsAt v)
  · obtain ⟨-, h⟩ := compileObjective_eq_ok.mp ho'
    rw [h]
  · exact compileObjective_valueAt (hs.objective o ho) ho' v

/-- A variable from zero up, `5·x1 ≥ 2·x1 + 6`, and `x1` to be made small. -/
def sample : Builder Extended String :=
  let declared := after (declare .numeric none (some (rational 0)) none) empty
  let related := after (relate (.expression (.term (.automatic 1) (rational 5)))
    (.expression (.linear [(.automatic 1, rational 2)] (rational 6))) .ge (some "cover")) declared
  after (setObjective (.expression (.term (.automatic 1) (rational 1))) .min) related

theorem sample_reachable : sample.Reachable := by
  have hterm : ∀ q, (Operand.expression (.term (.automatic 1) (rational q))).IsSound := fun q =>
    .expression (Expression.isSound_term _ q)
  have hform : (Expression.linear [(.automatic 1, rational 2)] (rational 6)).IsSound :=
    ⟨by simp [Coefficients.AreFinite, Expression.coefficients], rfl, List.nodup_singleton _⟩
  exact .step (.step (.step (.refl _) (.declare _ _ _ _ _))
    (.relate _ (hterm 5) (.expression hform) _ _)) (.setObjective _ (hterm 1) _)

/-- What a depot earns: `3·x2 + 2·x3 + 10`. -/
def profit : Expression Extended :=
  .linear [(.automatic 2, rational 3), (.automatic 3, rational 2)] (rational 10)

/-- A depot, which is open or not (`x1`), keeps up to ten crates (`x2`) and has a stock (`x3`). Its
room is limited, `2·x2 + 3·x3 + 4 ≤ x3 + 24`; the stock balances, `x2 - 6·x1 = x3`; and without
names, `x2 ≥ 1` and `x1 ≤ x2`. The profit is to be made large. -/
def depot : Builder Extended String :=
  let x (n : ℕ) : Operand Extended := .expression (.term (.automatic n) (rational 1))
  let declared := after (declare .numeric none (some (rational (-5))) none)
    (after (declare .integer none (some (rational 0)) (some (rational 10)))
      (after (declare .boolean none none none) empty))
  let room := after (relate
    (.expression (.linear [(.automatic 2, rational 2), (.automatic 3, rational 3)] (rational 4)))
    (.expression (.linear [(.automatic 3, rational 1)] (rational 24))) .le (some "room")) declared
  let balance := after (relate
    (.expression (.linear [(.automatic 2, rational 1), (.automatic 1, rational (-6))] (rational 0)))
    (x 3) .eq (some "balance")) room
  let related := after (relate (x 1) (x 2) .le none)
    (after (relate (x 2) (.number (rational 1)) .ge none) balance)
  after (setObjective (.expression profit) .max) related

theorem depot_reachable : depot.Reachable := by
  have hterm : ∀ n, (Operand.expression (.term (.automatic n) (rational 1))).IsSound := fun n =>
    .expression (Expression.isSound_term _ 1)
  have hform : ∀ (x y : VariableName) p q r, x ≠ y → (Operand.expression
      (.linear [(x, rational p), (y, rational q)] (rational r))).IsSound := by
    intro x y p q r h
    refine .expression ⟨by simp [Coefficients.AreFinite, Expression.coefficients], rfl, ?_⟩
    exact List.nodup_cons.mpr ⟨List.mem_singleton.not.mpr h, List.nodup_singleton _⟩
  have hstock : (Operand.expression
      (.linear [(.automatic 3, rational 1)] (rational 24))).IsSound :=
    .expression ⟨by simp [Coefficients.AreFinite, Expression.coefficients], rfl,
      List.nodup_singleton _⟩
  have hdeclared : Reaches (empty : Builder Extended String) _ :=
    .step (.step (.step (.refl _) (.declare _ .boolean none none none))
      (.declare _ .integer none (some (rational 0)) (some (rational 10))))
      (.declare _ .numeric none (some (rational (-5))) none)
  have hrelated := Reaches.step (.step hdeclared
    (.relate _ (hform (.automatic 2) (.automatic 3) 2 3 4 (by decide)) hstock .le (some "room")))
    (.relate _ (hform (.automatic 2) (.automatic 1) 1 (-6) 0 (by decide)) (hterm 3) .eq
      (some "balance"))
  exact .step (.step (.step hrelated (.relate _ (hterm 2) (.number _) .ge none))
    (.relate _ (hterm 1) (hterm 2) .le none))
    (.setObjective _ (hform (.automatic 2) (.automatic 3) 3 2 10 (by decide)) .max)

/-- The depot builds, and its model has its points, its variables and its constraints. -/
theorem depot_means : ∃ m, depot.build ⟨some .highs, rational 0⟩ = .ok m ∧
    m.constraints.map (fun c => (c.label, c.lower, c.upper))
      = [(some "room", infinite true, rational 20), (some "balance", rational 0, rational 0),
        (none, rational 1, infinite false), (none, infinite true, rational 0)] ∧
    (∀ v, depot.SatisfiedAt v ↔ m.SatisfiedAt v) ∧
    (∀ v, m.objective.valueAt v = profit.valueAt v) ∧
    List.Forall₂ CompiledVariable.Matches depot.vars m.vars ∧
    List.Forall₂ CompiledConstraint.Matches depot.constraints m.constraints := by
  have hranges : (depot.build ⟨some .highs, rational 0⟩).toOption.map (fun m =>
      m.constraints.map fun c => (c.label, c.lower, c.upper))
      = some [(some "room", infinite true, rational 20), (some "balance", rational 0, rational 0),
        (none, rational 1, infinite false), (none, infinite true, rational 0)] := by
    decide +kernel
  obtain ⟨m, hm, hranges⟩ := Option.map_eq_some_iff.mp hranges
  have hm := toOption_eq_some.mp hm
  obtain ⟨hsat, ⟨o, ho, -, hvalue⟩, hvars, hconstraints⟩ :=
    build_preserves_meaning depot_reachable hm
  cases Option.some.inj ho
  exact ⟨m, hm, hranges, hsat, hvalue, hvars, hconstraints⟩

end Builder
end LinModel
