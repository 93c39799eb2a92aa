import LinModel.Proofs.Builder.Extensions

/-!
# Minimizing the largest and maximizing the smallest are exact

Making the largest of some expressions small is bounding a helper by all of them from below and
making the helper small. Where the builder before was satisfied, the helper may be anything from
their largest value up (`Builder.satisfiedAt_withWorst`), so the best objective is their largest
value (`Builder.isBest_withWorst`), and the best points of the model are those at which the largest
value is the least that any point has (`Builder.isOptimalAt_withWorst`). Making the smallest large
is the same with the order turned around, so both are one argument over the direction of a goal: the
worst of the expressions is made as good as possible.

Key definitions: `Goal.IsBest`, `Goal.IsWorst`, `Problem.IsOptimalAt`, `Builder.optimizeWorst`,
`Builder.IsExact`.
Key theorems: `Builder.runFrom_optimizeWorst`, `Builder.satisfiedAt_withWorst`,
`Builder.isBest_withWorst`, `Builder.isOptimalAt_withWorst`, `Builder.optimizeWorst_isExact`.
-/
namespace LinModel

open Extended

variable {L : Type}

/-! ### Goals -/

namespace Goal

/-- In the direction of a goal, the first value is at least as good as the second. -/
def Prefers (p q : ℚ) : Goal → Prop
  | .min => p ≤ q
  | .max => q ≤ p

/-- The value is the best of a set: the least for a value to be made small. -/
def IsBest (s : Set ℚ) (q : ℚ) : Goal → Prop
  | .min => IsLeast s q
  | .max => IsGreatest s q

/-- The value is the worst of a set: the greatest for a value to be made small. -/
def IsWorst (s : Set ℚ) (q : ℚ) : Goal → Prop
  | .min => IsGreatest s q
  | .max => IsLeast s q

variable {goal : Goal} {s : Set ℚ} {p q : ℚ}

theorem isBest_iff : goal.IsBest s q ↔ q ∈ s ∧ ∀ p ∈ s, goal.Prefers q p := by
  cases goal with
  | min => exact Iff.rfl
  | max => exact Iff.rfl

theorem isWorst_iff : goal.IsWorst s q ↔ q ∈ s ∧ ∀ p ∈ s, goal.Prefers p q := by
  cases goal with
  | min => exact Iff.rfl
  | max => exact Iff.rfl

theorem Prefers.trans {r : ℚ} (h : goal.Prefers p q) (hr : goal.Prefers q r) :
    goal.Prefers p r := by
  cases goal with
  | min => exact le_trans h hr
  | max => exact le_trans hr h

theorem Prefers.antisymm (h : goal.Prefers p q) (hq : goal.Prefers q p) : p = q := by
  cases goal with
  | min => exact le_antisymm h hq
  | max => exact le_antisymm hq h

theorem exists_isWorst {α : Type} (goal : Goal) {l : List α} (h : l ≠ []) (f : α → ℚ) :
    ∃ q, goal.IsWorst {q | ∃ a ∈ l, f a = q} q := by
  obtain ⟨first, hfirst⟩ := List.exists_mem_of_ne_nil l h
  cases goal with
  | min =>
    obtain ⟨a, ha, hmax⟩ := Set.exists_max_image {a | a ∈ l} f l.finite_toSet ⟨first, hfirst⟩
    refine ⟨f a, ⟨a, ha, rfl⟩, ?_⟩
    rintro _ ⟨a', ha', rfl⟩
    exact hmax a' ha'
  | max =>
    obtain ⟨a, ha, hmin⟩ := Set.exists_min_image {a | a ∈ l} f l.finite_toSet ⟨first, hfirst⟩
    refine ⟨f a, ⟨a, ha, rfl⟩, ?_⟩
    rintro _ ⟨a', ha', rfl⟩
    exact hmin a' ha'

/-- How a helper is related to expressions whose worst is made as good as possible. -/
def bound : Goal → Relationship
  | .min => .ge
  | .max => .le

theorem relates_bound : goal.bound.Relates p q ↔ goal.Prefers q p := by
  cases goal with
  | min => exact Iff.rfl
  | max => exact Iff.rfl

end Goal

/-- The value of a compiled objective at a point. -/
def CompiledObjective.exactAt (o : CompiledObjective Extended) (v : Point) : ℚ :=
  (o.valueAt v).toRat

/-- The point satisfies the problem, and none that does has a better objective. -/
def Problem.IsOptimalAt (p : Problem Extended L) (v : Point) : Prop :=
  p.SatisfiedAt v ∧ ∀ w, p.SatisfiedAt w →
    p.objective.goal.Prefers (p.objective.exactAt v) (p.objective.exactAt w)

namespace Builder

/-! ### The worst of some expressions -/

/-- Makes the largest of some operands as small as possible, or the smallest as large. -/
def optimizeWorst {K : Type} [Scalar K] (goal : Goal) (items : List (Operand K)) :
    BuilderM K L (Objective K × Variable K × List (Constraint K L)) :=
  match goal with
  | .min => Reformulation.minimizeLargest steps items
  | .max => Reformulation.maximizeSmallest steps items

/-- The values of expressions at a point. -/
def valuesAt (es : List (Expression Extended)) (a : Point) : Set ℚ :=
  {q | ∃ e ∈ es, e.exactAt a = q}

/-- The constraints that bound a helper by expressions. -/
def bounds (b : Builder Extended L) (x : Variable Extended) (r : Relationship)
    (es : List (Expression Extended)) : List (Constraint Extended L) :=
  es.map fun e => b.relabel ⟨.variable x, e, r, none⟩ none

/-- The builder with a helper that is bounded by expressions and is the objective. -/
def withWorst (b : Builder Extended L) (goal : Goal) (es : List (Expression Extended)) :
    Builder Extended L :=
  let x := Recipe.helper (b.sequence + 1) false
  { b.withHelper false with
    constraints := b.constraints ++ b.bounds x goal.bound es
    objective := some ⟨.variable x, goal⟩ }

section Worst

theorem runFrom_relateAll {left : Expression Extended} (r : Relationship)
    {items : List (Operand Extended)} {es : List (Expression Extended)}
    (h : List.Forall₂ (fun o e => o.toExpression = .ok e) items es) (b : Builder Extended L) :
    runFrom (items.mapM fun o => relate (.expression left) o r none) b
      = (.ok (es.map fun e => b.relabel ⟨left, e, r, none⟩ none),
          { b with
            constraints :=
              b.constraints ++ es.map fun e => b.relabel ⟨left, e, r, none⟩ none }) := by
  induction h generalizing b with
  | nil => rw [List.mapM_nil, runFrom_pure, List.map_nil, List.append_nil]
  | @cons o e items es ho _ ih =>
    rw [List.mapM_cons, runFrom_bind, runFrom_relate, ho]
    simp only
    rw [runFrom_bind, ih]
    -- the label depends on the block only, which is still the one of `b`
    rw [List.map_cons, List.append_assoc]
    rfl

variable {b : Builder Extended L} {goal : Goal} {items : List (Operand Extended)}
  {es : List (Expression Extended)}

/-- Bounding a helper fails if its name is taken, and otherwise registers it with its bounds. -/
theorem runFrom_bounding (r : Relationship)
    (hes : List.Forall₂ (fun o e => o.toExpression = .ok e) items es) :
    runFrom (do
        let v ← (steps (L := L)).declare false
        let cs ← items.mapM fun o => (steps (L := L)).relate ((steps (L := L)).ofVariable v) o r
        return (v, cs)) b
      = if .automatic (b.sequence + 1) ∈ b.names then
          (.error (.duplicateName (.automatic (b.sequence + 1))),
            { b with sequence := b.sequence + 1 })
        else
          (.ok (Recipe.helper (b.sequence + 1) false,
              b.bounds (Recipe.helper (b.sequence + 1) false) r es),
            { b.withHelper false with
              constraints :=
                b.constraints ++ b.bounds (Recipe.helper (b.sequence + 1) false) r es }) := by
  rw [runFrom_bind]
  by_cases hmem : .automatic (b.sequence + 1) ∈ b.names
  · rw [runFrom_declare_of_mem false hmem, if_pos hmem]
  · rw [runFrom_declare_of_not_mem false hmem, if_neg hmem]
    have hsteps : (items.mapM fun o => (steps (L := L)).relate ((steps (L := L)).ofVariable
        (Recipe.helper (b.sequence + 1) false)) o r)
        = items.mapM fun o => relate (.expression (.variable _)) o r none := rfl
    simp only
    rw [runFrom_bind, hsteps, runFrom_relateAll r hes]
    rfl

/-- A reformulation that returns has a helper with a new name, and leaves the builder with it. -/
theorem runFrom_optimizeWorst {o : Objective Extended} {x : Variable Extended}
    {cs : List (Constraint Extended L)} {c : Builder Extended L}
    (hes : List.Forall₂ (fun o e => o.toExpression = .ok e) items es)
    (h : runFrom (optimizeWorst goal items) b = (.ok (o, x, cs), c)) :
    .automatic (b.sequence + 1) ∉ b.names ∧ o = ⟨.variable x, goal⟩ ∧
      x = Recipe.helper (b.sequence + 1) false ∧ cs = b.bounds x goal.bound es ∧
      c = b.withWorst goal es := by
  have hrun : runFrom (optimizeWorst goal items) b = runFrom (do
      let bounded ← (do
        let v ← (steps (L := L)).declare false
        let cs ← items.mapM fun o =>
          (steps (L := L)).relate ((steps (L := L)).ofVariable v) o goal.bound
        return (v, cs))
      let o ← (steps (L := L)).optimize ((steps (L := L)).ofVariable bounded.1) goal
      return (o, bounded.1, bounded.2)) b := by
    cases goal with
    | min => rfl
    | max => rfl
  rw [hrun, runFrom_bind, runFrom_bounding goal.bound hes] at h
  by_cases hmem : .automatic (b.sequence + 1) ∈ b.names
  · rw [if_pos hmem] at h
    cases h
  · rw [if_neg hmem] at h
    cases h
    exact ⟨hmem, rfl, rfl, rfl, rfl⟩

variable {v a : Point}

theorem forall_mem_valuesAt {p : ℚ → Prop} :
    (∀ q ∈ valuesAt es a, p q) ↔ ∀ e ∈ es, p (e.exactAt a) := by
  constructor
  · intro h e he
    exact h _ ⟨e, he, rfl⟩
  · rintro h _ ⟨e, he, rfl⟩
    exact h e he

theorem valuesAt_congr (hover : ∀ e ∈ es, e.names ⊆ b.names) (h : v.AgreesOn a b.names) :
    valuesAt es v = valuesAt es a := by
  ext q
  refine exists_congr fun e => and_congr_right fun he => ?_
  rw [Expression.exactAt_congr (h.mono (hover e he))]

variable (hb : b.IsSound) (hself : b.IsSelfContained)
  (hsound : ∀ e ∈ es, e.IsSound) (hover : ∀ e ∈ es, e.names ⊆ b.names)
  (hnew : .automatic (b.sequence + 1) ∉ b.names)

include hsound

/-- The bounds hold where the helper is related to the value of every expression. -/
theorem forall_bounds_iff {x : Variable Extended} {r : Relationship} :
    (∀ k ∈ b.bounds x r es, k.HoldsAt v) ↔ ∀ e ∈ es, r.Relates (v x.name) (e.exactAt v) := by
  unfold bounds
  rw [List.forall_mem_map]
  refine forall₂_congr fun e he => ?_
  rw [holdsAt_relabel, Constraint.holdsAt_iff (Expression.isSound_variable x) (hsound e he),
    Expression.exactAt_variable]

/-- Where the builder was satisfied, the helper may be any value that is no better than an
expression. -/
theorem satisfiedAt_withWorst :
    (b.withWorst goal es).SatisfiedAt v ↔
      b.SatisfiedAt v ∧
        ∀ q ∈ valuesAt es v, goal.Prefers q (v (.automatic (b.sequence + 1))) := by
  have hvars : (b.withWorst goal es).vars = b.vars ++ [Recipe.helper (b.sequence + 1) false] := rfl
  have hfree : ∀ x ∈ [Recipe.helper (b.sequence + 1) false], x.AdmitsAt v := by
    intro x hx
    rw [List.mem_singleton.mp hx, admitsAt_helper]
    exact nofun
  rw [satisfiedAt_append hvars rfl, forall_bounds_iff hsound, and_iff_left hfree,
    forall_mem_valuesAt]
  exact and_congr_right fun _ => forall₂_congr fun e _ => Goal.relates_bound

include hb hnew

theorem isSound_withWorst : (b.withWorst goal es).IsSound := by
  have hhelper : (b.withHelper false).IsSound :=
    hb.addVariable (isSound_helper (b.sequence + 1) false) hnew _
  have hbounds : ∀ k ∈ b.bounds (Recipe.helper (b.sequence + 1) false) goal.bound es,
      k.IsSound := by
    unfold bounds
    rw [List.forall_mem_map]
    exact fun e he => isSound_relabel ⟨Expression.isSound_variable _, hsound e he⟩ none
  refine { hhelper.addConstraints hbounds with objective := ?_ }
  rintro _ ⟨⟩
  exact Expression.isSound_variable _

include hself hover

/-- A builder whose constraints mention registered names builds with a helper for some expressions
over registered names, once there is a solver. -/
theorem exists_build_withWorst (hne : es ≠ []) (solver : Solver) (tolerance : Extended) :
    ∃ m, (b.withWorst goal es).build ⟨some solver, tolerance⟩ = .ok m := by
  have hnames : (b.withWorst goal es).names = b.names ++ [.automatic (b.sequence + 1)] :=
    List.map_append
  have hvars : (b.withWorst goal es).vars ≠ [] := List.append_ne_nil_of_right_ne_nil _ nofun
  have hconstraints : (b.withWorst goal es).constraints ≠ [] :=
    List.append_ne_nil_of_right_ne_nil _ (mt List.map_eq_nil_iff.mp hne)
  cases h : (b.withWorst goal es).build ⟨some solver, tolerance⟩ with
  | ok m => exact ⟨m, rfl⟩
  | error e =>
    obtain ⟨name, -, -, hmentions, hunknown⟩ := build_eq_error
      (isSound_withWorst hb hsound hnew) hvars hconstraints (Option.some_ne_none _)
      (Option.some_ne_none _) h
    rw [hnames, List.mem_append, List.mem_singleton, not_or] at hunknown
    rcases hmentions with ⟨k, hk, -, hmentions⟩ | ⟨o, ⟨⟩, hmentions⟩
    · rcases List.mem_append.mp hk with hk | hk
      · obtain ⟨hl, hr⟩ := hself k hk
        exact absurd (hmentions.elim (hl ·) (hr ·)) hunknown.1
      · obtain ⟨e, he, rfl⟩ := List.mem_map.mp hk
        obtain ⟨hl, hr⟩ := b.relabel_sides
          ⟨.variable (Recipe.helper (b.sequence + 1) false), e, goal.bound, none⟩ none
        rw [hl, hr] at hmentions
        rcases hmentions with hmentions | hmentions
        · exact absurd (List.mem_singleton.mp hmentions) hunknown.2
        · exact absurd (hover e he hmentions) hunknown.1
    · exact absurd (List.mem_singleton.mp hmentions) hunknown.2

end Worst

/-- What it takes that a reformulation makes the worst of some expressions as good as possible.
It goes from a builder `b` to a builder `c`, with an objective `o`, a helper `x` and constraints
`cs`. -/
structure IsExact (goal : Goal) (b c : Builder Extended L) (o : Objective Extended)
    (x : Variable Extended) (cs : List (Constraint Extended L)) (es : List (Expression Extended)) :
    Prop where
  fresh : x.name ∉ b.names
  vars : c.vars = b.vars ++ [x]
  constraints : c.constraints = b.constraints ++ cs
  objective : c.objective = some o ∧ o.goal = goal
  /-- A point satisfies the constraints if its values for the variables before did, and its value
  for the helper is no better than any expression. -/
  holds : ∀ v a, v.AgreesOn a b.names →
    ((∀ k ∈ c.constraints, k.HoldsAt v) ↔
      (∀ k ∈ b.constraints, k.HoldsAt a) ∧ ∀ q ∈ valuesAt es a, goal.Prefers q (v x.name))
  /-- Where a point is extended, the best objective is the worst of the expressions. -/
  best : ∀ a, b.SatisfiedAt a → ∃ q, goal.IsWorst (valuesAt es a) q ∧
    goal.IsBest (c.extensionValues b.names a o.expression) q
  /-- The model builds, and is optimal where the worst of the expressions is the best that a point
  can have. -/
  solved : ∀ solver tolerance, ∃ m, c.build ⟨some solver, tolerance⟩ = .ok m ∧
    m.objective.goal = goal ∧ (∀ v, m.objective.valueAt v = rational (v x.name)) ∧
    ∀ v, m.IsOptimalAt v ↔ b.SatisfiedAt v ∧ goal.IsWorst (valuesAt es v) (v x.name) ∧
      goal.IsBest {q | ∃ a, b.SatisfiedAt a ∧ goal.IsWorst (valuesAt es a) q} (v x.name)

section Exact

variable {b : Builder Extended L} {goal : Goal} {es : List (Expression Extended)} {v a : Point}

variable (hb : b.IsSound) (hself : b.IsSelfContained) (hsound : ∀ e ∈ es, e.IsSound)
  (hover : ∀ e ∈ es, e.names ⊆ b.names) (hnew : .automatic (b.sequence + 1) ∉ b.names)

include hb hself hsound hover hnew

/-- A point at which the builder was satisfied is extended by the worst of the expressions. -/
theorem satisfiedAt_update {q : ℚ} (ha : b.SatisfiedAt a) (hq : goal.IsWorst (valuesAt es a) q) :
    (b.withWorst goal es).SatisfiedAt (Function.update a (.automatic (b.sequence + 1)) q) := by
  have hagrees : Point.AgreesOn (Function.update a (.automatic (b.sequence + 1)) q) a b.names :=
    Point.agreesOn_update q (fun _ _ => rfl) hnew
  rw [satisfiedAt_withWorst hsound, satisfiedAt_congr hb hself hagrees]
  rw [valuesAt_congr hover hagrees, Function.update_self]
  exact ⟨ha, (Goal.isWorst_iff.mp hq).2⟩

/-- **The best value of the helper is the worst of the expressions.** -/
theorem isBest_withWorst {q : ℚ} (ha : b.SatisfiedAt a) (hq : goal.IsWorst (valuesAt es a) q) :
    goal.IsBest ((b.withWorst goal es).extensionValues b.names a
      (.variable (Recipe.helper (b.sequence + 1) false))) q := by
  refine Goal.isBest_iff.mpr ⟨?_, ?_⟩
  · exact ⟨_, Point.agreesOn_update q (fun _ _ => rfl) hnew,
      satisfiedAt_update hb hself hsound hover hnew ha hq,
      (Expression.exactAt_variable _ _).trans (Function.update_self _ _ _)⟩
  · rintro _ ⟨v, hagrees, hv, rfl⟩
    rw [Expression.exactAt_variable]
    have hworst := (Goal.isWorst_iff.mp hq).1
    rw [← valuesAt_congr hover hagrees] at hworst
    exact ((satisfiedAt_withWorst hsound).mp hv).2 q hworst

/-- **The model is optimal where the worst of the expressions is the best that a point can have.**
-/
theorem isOptimalAt_withWorst (hne : es ≠ []) {settings : Settings Extended}
    {m : CompiledModel Extended L} (hm : (b.withWorst goal es).build settings = .ok m) :
    m.IsOptimalAt v ↔ b.SatisfiedAt v ∧
      goal.IsWorst (valuesAt es v) (v (.automatic (b.sequence + 1))) ∧
      goal.IsBest {q | ∃ a, b.SatisfiedAt a ∧ goal.IsWorst (valuesAt es a) q}
        (v (.automatic (b.sequence + 1))) := by
  have hc : (b.withWorst goal es).IsSound := isSound_withWorst hb hsound hnew
  obtain ⟨hgoal, hvalue⟩ := objective_of_build hc hm rfl
  have hexact : ∀ v, m.objective.exactAt v = v (.automatic (b.sequence + 1)) := by
    intro v
    rw [CompiledObjective.exactAt, hvalue, toRat_rational]
    exact Expression.exactAt_variable _ v
  have hsatisfied : ∀ v, m.SatisfiedAt v ↔ _ := fun v =>
    (satisfiedAt_of_build hc hm v).trans (satisfiedAt_withWorst hsound)
  have hgoal' : m.objective.goal = goal := hgoal
  unfold Problem.IsOptimalAt
  rw [hgoal']
  simp only [hexact]
  constructor
  · rintro ⟨hv, hoptimal⟩
    obtain ⟨hbv, hbounds⟩ := (hsatisfied v).mp hv
    -- no point has a worst value better than the helper's, as it could be the helper's
    have hprefers : ∀ a q, b.SatisfiedAt a → goal.IsWorst (valuesAt es a) q →
        goal.Prefers (v (.automatic (b.sequence + 1))) q := by
      intro a q ha hq
      have hextended := (satisfiedAt_of_build hc hm _).mpr
        (satisfiedAt_update hb hself hsound hover hnew ha hq)
      have := hoptimal _ hextended
      rwa [Function.update_self] at this
    obtain ⟨q, hq⟩ := goal.exists_isWorst hne fun e => e.exactAt v
    have hworst : v (.automatic (b.sequence + 1)) = q :=
      (hprefers v q hbv hq).antisymm (hbounds q (Goal.isWorst_iff.mp hq).1)
    rw [← hworst] at hq
    refine ⟨hbv, hq, Goal.isBest_iff.mpr ⟨⟨v, hbv, hq⟩, ?_⟩⟩
    rintro p ⟨a, ha, hp⟩
    exact hprefers a p ha hp
  · rintro ⟨hbv, hworst, hbest⟩
    refine ⟨(hsatisfied v).mpr ⟨hbv, (Goal.isWorst_iff.mp hworst).2⟩, fun w hw => ?_⟩
    obtain ⟨hbw, hbounds⟩ := (hsatisfied w).mp hw
    obtain ⟨q, hq⟩ := goal.exists_isWorst hne fun e => e.exactAt w
    have hwq := hbounds q (Goal.isWorst_iff.mp hq).1
    exact ((Goal.isBest_iff.mp hbest).2 q ⟨w, hbw, hq⟩).trans hwq

omit hnew in
/-- Where the constraints held, the helper may be any value that is no better than an
expression. -/
theorem holdsAt_withWorst (h : v.AgreesOn a b.names) :
    (∀ k ∈ (b.withWorst goal es).constraints, k.HoldsAt v) ↔
      (∀ k ∈ b.constraints, k.HoldsAt a) ∧
        ∀ q ∈ valuesAt es a, goal.Prefers q (v (.automatic (b.sequence + 1))) := by
  have hconstraints : (b.withWorst goal es).constraints = b.constraints ++ _ := rfl
  rw [hconstraints, List.forall_mem_append, constraints_congr hb hself h,
    forall_bounds_iff hsound, ← valuesAt_congr hover h, forall_mem_valuesAt]
  exact and_congr_right fun _ => forall₂_congr fun e _ => Goal.relates_bound

end Exact

/-- **Minimizing the largest and maximizing the smallest are exact.** Let a builder be reached whose
constraints mention declared variables, and let some operands stand for expressions of these. If
making the largest of them small, or the smallest large, returns, then it has declared a new
variable; a point satisfies the constraints now if its values for the variables before did and its
value for the new one is no better than any of the expressions; for every point that satisfied the
builder, the best objective of those that extend it is the worst of the expressions there; and the
model builds and is optimal where the worst of the expressions is the best that a point can have. -/
theorem optimizeWorst_isExact {goal : Goal} {b c : Builder Extended L}
    {items : List (Operand Extended)} {es : List (Expression Extended)} {o : Objective Extended}
    {x : Variable Extended} {cs : List (Constraint Extended L)} (hb : b.Reachable)
    (hself : b.IsSelfContained) (hne : items ≠ []) (hitems : ∀ i ∈ items, i.IsSound)
    (hes : items.mapM Operand.toExpression = .ok es) (hover : ∀ e ∈ es, e.names ⊆ b.names)
    (h : runFrom (optimizeWorst goal items) b = (.ok (o, x, cs), c)) :
    IsExact goal b c o x cs es := by
  have hs := hb.isSound
  have hrelated := mapM_eq_ok.mp hes
  have hsound : ∀ e ∈ es, e.IsSound := by
    intro e he
    obtain ⟨i, -, hi, hie⟩ := exists_mem_of_forall₂ ((List.forall₂_and_left _ _).mpr
      ⟨hitems, hrelated⟩) he
    exact hi.toExpression hie
  have hne' : es ≠ [] := by
    rintro rfl
    exact hne (List.forall₂_nil_right_iff.mp hrelated)
  obtain ⟨hnew, rfl, rfl, rfl, rfl⟩ := runFrom_optimizeWorst hrelated h
  constructor
  case fresh => exact hnew
  case vars => rfl
  case constraints => rfl
  case objective => exact ⟨rfl, rfl⟩
  case holds => exact fun v a hagrees => holdsAt_withWorst hs hself hsound hover hagrees
  case best =>
    intro a ha
    obtain ⟨q, hq⟩ := goal.exists_isWorst hne' fun e => e.exactAt a
    exact ⟨q, hq, isBest_withWorst hs hself hsound hover hnew ha hq⟩
  case solved =>
    intro solver tolerance
    obtain ⟨m, hm⟩ := exists_build_withWorst hs hself hsound hover hnew hne' solver tolerance
    obtain ⟨hgoal, hvalue⟩ := objective_of_build (isSound_withWorst hs hsound hnew) hm rfl
    refine ⟨m, hm, hgoal, fun v => ?_, fun v => ?_⟩
    · rw [hvalue, Expression.exactAt_variable]
    · exact isOptimalAt_withWorst hs hself hsound hover hnew hne' hm

/-- `3·x1` and 7, as they are offered. -/
def sampleOperands : List (Operand Extended) :=
  [.expression (.term (.automatic 1) (rational 3)), .number (rational 7)]

/-- `3·x1` and 7 as expressions. -/
def sampleExpressions : List (Expression Extended) :=
  [.term (.automatic 1) (rational 3), .linear [] (rational 7)]

/-- Making the larger of `3·x1` and 7 small on the sample, and the smaller of the two large. -/
theorem sample_isExact :
    (∃ o x cs c, runFrom (optimizeWorst .min sampleOperands) sample = (.ok (o, x, cs), c) ∧
      IsExact .min sample c o x cs sampleExpressions) ∧
    ∃ o x cs c, runFrom (optimizeWorst .max sampleOperands) sample = (.ok (o, x, cs), c) ∧
      IsExact .max sample c o x cs sampleExpressions := by
  have hitems : ∀ i ∈ sampleOperands, i.IsSound :=
    List.forall_mem_cons.mpr ⟨.expression (Expression.isSound_term _ 3),
      List.forall_mem_singleton.mpr (.number _)⟩
  have hover : ∀ e ∈ sampleExpressions, e.names ⊆ sample.names :=
    List.forall_mem_cons.mpr ⟨by decide, List.forall_mem_singleton.mpr (by decide)⟩
  exact ⟨⟨_, _, _, _, rfl, optimizeWorst_isExact sample_reachable sample_isSelfContained
      (List.cons_ne_nil _ _) hitems rfl hover rfl⟩,
    _, _, _, _, rfl, optimizeWorst_isExact sample_reachable sample_isSelfContained
      (List.cons_ne_nil _ _) hitems rfl hover rfl⟩

end Builder
end LinModel
