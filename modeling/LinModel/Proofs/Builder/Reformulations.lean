import LinModel.Builder.Reformulation
import LinModel.Proofs.Compiling.Meaning

/-!
# What a failing reformulation leaves

A reformulation declares one or two helper variables under automatic names and then relates them to
its operands, one after the other. It fails if a helper's name is taken, or at the first operand
that does not stand for an expression, and then the steps before stay: the automatic names are used
up, the helpers are registered, and so are the constraints with the operands before the refused one
(`Recipe.Plan.Leaves`). As the first step is to use up an automatic name, no reformulation that
fails leaves the builder as it was (`Builder.failed_recipe_leaves`). The objective is set last, when
nothing can fail any more, so a failing one leaves it alone.

Key definitions: `Recipe`, `Recipe.run`, `Recipe.plan`, `Recipe.Plan.Leaves`,
`Expression.combined`.
Key theorems: `Builder.runFrom_declare_helper`, `Builder.runFrom_relateAll_error`,
`Builder.failed_recipe_leaves`.
-/
namespace LinModel

open Extended

variable {L : Type}

/-! ### Recipes -/

/-- The reformulations with their operands. -/
inductive Recipe (K : Type)
  | largest (items : List (Operand K))
  | smallest (items : List (Operand K))
  | absolute (item : Operand K)
  | maximizeSmallest (items : List (Operand K))
  | minimizeLargest (items : List (Operand K))

namespace Recipe

/-- Carries out a reformulation on a builder. -/
def run {K : Type} [Scalar K] : Recipe K → BuilderM K L Unit
  | largest items => do
    let _ ← Reformulation.largest Builder.steps items
  | smallest items => do
    let _ ← Reformulation.smallest Builder.steps items
  | absolute item => do
    let _ ← Reformulation.absolute Builder.steps item
  | maximizeSmallest items => do
    let _ ← Reformulation.maximizeSmallest Builder.steps items
  | minimizeLargest items => do
    let _ ← Reformulation.minimizeLargest Builder.steps items

/-- The numeric variable with automatic number `n`, free or not negative. -/
def helper (n : ℕ) (nonNegative : Bool) : Variable Extended :=
  ⟨.automatic n, .numeric, if nonNegative then rational 0 else infinite true, infinite false⟩

/-- What a reformulation does: it declares the helpers in order, and then relates an expression of
them to the operands in order. -/
structure Plan where
  helpers : List (Variable Extended)
  side : Expression Extended
  relationship : Relationship
  operands : List (Operand Extended)

/-- The plan to bound operands by a free helper, after `n` automatic names. -/
def Plan.bounding (n : ℕ) (r : Relationship) (items : List (Operand Extended)) : Plan where
  helpers := [helper (n + 1) false]
  side := .variable (helper (n + 1) false)
  relationship := r
  operands := items

/-- The plan to split an operand into two helpers that are not negative. -/
def Plan.splitting (n : ℕ) (item : Operand Extended) : Plan where
  helpers := [helper (n + 1) true, helper (n + 2) true]
  side := .linear [(.automatic (n + 1), rational 1), (.automatic (n + 2), rational (-1))]
    (rational 0)
  relationship := .eq
  operands := [item]

/-- What a reformulation does after `n` automatic names. -/
def plan (n : ℕ) : Recipe Extended → Plan
  | largest items | minimizeLargest items => .bounding n .ge items
  | smallest items | maximizeSmallest items => .bounding n .le items
  | absolute item => .splitting n item

end Recipe

/-- A variable and a multiple of another, as adding and subtracting variables gives them. -/
def Expression.combined (sign : ℚ) (x y : Variable Extended) : Expression Extended :=
  .linear [(x.name, rational 1), (y.name, rational sign)] (rational 0)

/-- A variable is let in if its name is not taken. -/
def Builder.letIn (b : Builder Extended L) (x : Variable Extended) :
    Except VariableName (Variable Extended) :=
  if x.name ∈ b.names then .error x.name else .ok x

/-- How a plan fails on a builder, and what it leaves then. -/
inductive Recipe.Plan.Leaves (p : Recipe.Plan) (b : Builder Extended L) :
    BuilderError Extended → Builder Extended L → Prop
  /-- The name of a helper is taken; the helpers before it stay, and its number is used up. -/
  | taken {before : List (Variable Extended)} {name : VariableName}
      (h : FailsAfter b.letIn before name p.helpers) :
      p.Leaves b (.duplicateName name)
        { b with sequence := b.sequence + before.length + 1, vars := b.vars ++ before }
  /-- An operand is refused; the helpers stay, with their constraints with the operands before. -/
  | refused {xs : List (Expression Extended)} {e : OperandError Extended}
      (hnew : ∀ x ∈ p.helpers, x.name ∉ b.names)
      (h : FailsAfter Operand.toExpression xs e p.operands) :
      p.Leaves b (.operand e)
        { b with
          sequence := b.sequence + p.helpers.length
          vars := b.vars ++ p.helpers
          constraints := b.constraints ++ xs.map fun x =>
            b.relabel ⟨p.side, x, p.relationship, none⟩ none }

namespace Builder

/-! ### Declaring the helpers -/

/-- The builder with one more helper. -/
def withHelper (b : Builder Extended L) (nonNegative : Bool) : Builder Extended L :=
  { b with
    sequence := b.sequence + 1
    vars := b.vars ++ [Recipe.helper (b.sequence + 1) nonNegative] }

theorem mem_names_withHelper {b : Builder Extended L} {nonNegative : Bool} {name : VariableName} :
    name ∈ (b.withHelper nonNegative).names ↔
      name ∈ b.names ∨ name = .automatic (b.sequence + 1) := by
  unfold names withHelper
  rw [List.map_append, List.mem_append]
  exact or_congr_right List.mem_singleton

/-- Declaring a helper comes down to registering it, once its number is used up. -/
theorem runFrom_declare_helper (b : Builder Extended L) (nonNegative : Bool) :
    runFrom ((steps (L := L)).declare nonNegative) b
      = runFrom (register (Recipe.helper (b.sequence + 1) nonNegative))
          { b with sequence := b.sequence + 1 } := by
  cases nonNegative with
  | false => rfl
  | true => rfl

theorem runFrom_declare_of_mem {b : Builder Extended L} (nonNegative : Bool)
    (h : .automatic (b.sequence + 1) ∈ b.names) :
    runFrom ((steps (L := L)).declare nonNegative) b
      = (.error (.duplicateName (.automatic (b.sequence + 1))),
          { b with sequence := b.sequence + 1 }) := by
  rw [runFrom_declare_helper, runFrom_register]
  exact if_pos (List.contains_iff_mem.mpr h)

theorem runFrom_declare_of_not_mem {b : Builder Extended L} (nonNegative : Bool)
    (h : .automatic (b.sequence + 1) ∉ b.names) :
    runFrom ((steps (L := L)).declare nonNegative) b
      = (.ok (Recipe.helper (b.sequence + 1) nonNegative), b.withHelper nonNegative) := by
  rw [runFrom_declare_helper, runFrom_register]
  exact if_neg (mt List.contains_iff_mem.mp h)

/-! ### Relating the helpers to the operands -/

/-- Relating an expression to an operand registers a constraint, unless the operand is refused. -/
theorem runFrom_relate (left : Expression Extended) (r : Relationship) (o : Operand Extended)
    (b : Builder Extended L) :
    runFrom (relate (.expression left) o r none) b = match o.toExpression with
      | .error e => (.error (.operand e), b)
      | .ok x => (.ok (b.relabel ⟨left, x, r, none⟩ none),
          { b with constraints := b.constraints ++ [b.relabel ⟨left, x, r, none⟩ none] }) := by
  unfold relate
  simp only [runFrom_bind, runFrom_expressionOf]
  cases o.toExpression with
  | error e => rfl
  | ok x => rfl

/-- Relating an expression to operands fails at the first that is refused, and leaves the
constraints with those before it. -/
theorem runFrom_relateAll_error (left : Expression Extended) (r : Relationship)
    {e : BuilderError Extended} {c : Builder Extended L} :
    ∀ (items : List (Operand Extended)) (b : Builder Extended L),
      runFrom (items.mapM fun o => relate (.expression left) o r none) b = (.error e, c) ↔
        ∃ xs e', FailsAfter Operand.toExpression xs e' items ∧ e = .operand e' ∧
          c = { b with
            constraints := b.constraints ++ xs.map fun x => b.relabel ⟨left, x, r, none⟩ none }
  | [], b => by
    rw [List.mapM_nil, runFrom_pure]
    constructor
    · intro h
      cases h
    · rintro ⟨xs, e', h, -⟩
      cases h
  | o :: rest, b => by
    rw [List.mapM_cons, runFrom_bind, runFrom_relate]
    cases ho : o.toExpression with
    | error e' =>
      constructor
      · rintro ⟨⟩
        exact ⟨[], e', .here ho rest, rfl, by rw [List.map_nil, List.append_nil]⟩
      · rintro ⟨xs, e', hrefused, rfl, rfl⟩
        cases hrefused with
        | here h =>
          cases ho.symm.trans h
          rw [List.map_nil, List.append_nil]
        | later h => cases ho.symm.trans h
    | ok x =>
      simp only
      rw [runFrom_bind_pure_error, runFrom_relateAll_error left r rest]
      constructor
      · rintro ⟨xs, e', hrefused, rfl, rfl⟩
        refine ⟨x :: xs, e', .later ho hrefused, rfl, ?_⟩
        -- the label depends on the block only, which is still the one of `b`
        rw [List.map_cons, List.append_assoc]
        rfl
      · rintro ⟨xs, e', hrefused, rfl, rfl⟩
        cases hrefused with
        | here h => cases ho.symm.trans h
        | later h hrefused =>
          cases ho.symm.trans h
          refine ⟨_, e', hrefused, rfl, ?_⟩
          rw [List.map_cons, List.append_assoc]
          rfl

/-! ### Whole plans -/

section Plans

variable {p : Recipe.Plan} {b c : Builder Extended L} {e : BuilderError Extended}

theorem letIn_helper {n : ℕ} (nonNegative : Bool) (h : .automatic n ∈ b.names) :
    b.letIn (Recipe.helper n nonNegative) = .error (.automatic n) := if_pos h

theorem letIn_eq_ok {x : Variable Extended} (h : x.name ∉ b.names) : b.letIn x = .ok x := if_neg h

theorem not_failsAfter_letIn (hnew : ∀ x ∈ p.helpers, x.name ∉ b.names)
    {before : List (Variable Extended)} {name : VariableName} :
    ¬FailsAfter b.letIn before name p.helpers := by
  intro h
  obtain ⟨x, hx, h⟩ := h.exists_mem
  rw [letIn_eq_ok (hnew x hx)] at h
  cases h

theorem leaves_iff_of_taken {before : List (Variable Extended)} {name : VariableName}
    (h : FailsAfter b.letIn before name p.helpers) :
    p.Leaves b e c ↔ e = .duplicateName name ∧
      c = { b with sequence := b.sequence + before.length + 1, vars := b.vars ++ before } := by
  constructor
  · intro hleaves
    cases hleaves with
    | taken h' =>
      obtain ⟨rfl, rfl⟩ := h.unique h'
      exact ⟨rfl, rfl⟩
    | refused hnew => exact absurd h (not_failsAfter_letIn hnew)
  · rintro ⟨rfl, rfl⟩
    exact .taken h

/-- Once the helpers are declared, a plan fails as relating them to the operands does. -/
theorem leaves_iff_of_new (hnew : ∀ x ∈ p.helpers, x.name ∉ b.names) :
    p.Leaves b e c ↔ runFrom (p.operands.mapM fun o =>
        relate (.expression p.side) o p.relationship none)
      { b with
        sequence := b.sequence + p.helpers.length
        vars := b.vars ++ p.helpers } = (.error e, c) := by
  rw [runFrom_relateAll_error]
  constructor
  · intro h
    cases h with
    | taken h => exact absurd h (not_failsAfter_letIn hnew)
    | @refused xs e' _ h => exact ⟨xs, e', h, rfl, rfl⟩
  · rintro ⟨xs, e', h, rfl, rfl⟩
    exact .refused hnew h

theorem runFrom_bounding_error (r : Relationship) (items : List (Operand Extended)) :
    runFrom (do
        let v ← (steps (L := L)).declare false
        let cs ← items.mapM fun o => (steps (L := L)).relate ((steps (L := L)).ofVariable v) o r
        return (v, cs)) b = (.error e, c) ↔
      (Recipe.Plan.bounding b.sequence r items).Leaves b e c := by
  rw [runFrom_bind]
  by_cases hmem : .automatic (b.sequence + 1) ∈ b.names
  · have htaken : FailsAfter b.letIn [] (.automatic (b.sequence + 1))
        (Recipe.Plan.bounding b.sequence r items).helpers := .here (letIn_helper false hmem) []
    rw [runFrom_declare_of_mem false hmem, leaves_iff_of_taken htaken, List.append_nil]
    exact error_eq_iff
  · have hnew : ∀ x ∈ (Recipe.Plan.bounding b.sequence r items).helpers, x.name ∉ b.names := by
      intro x hx
      rw [List.mem_singleton.mp hx]
      exact hmem
    rw [runFrom_declare_of_not_mem false hmem, leaves_iff_of_new hnew]
    exact runFrom_bind_pure_error _

theorem combine_variables (sign : ℚ) {x y : Variable Extended} (h : x.name ≠ y.name) :
    Expression.combine (rational sign) (.variable x) (.variable y)
      = .ok (.combined sign x y) := by
  have hsign : rational sign * Scalar.one = rational sign := by simp
  unfold Expression.combine
  simp only [Expression.term?, if_neg h, hsign]
  rfl

theorem runFrom_combineOperands {f : Expression Extended → Expression Extended →
      Except (ExpressionError Extended) (Expression Extended)} {x y z : Expression Extended}
    (h : f x y = .ok z) (b : Builder Extended L) :
    runFrom (steps.combineOperands f (.expression x) (.expression y)) b
      = (.ok (.expression z), b) := by
  unfold steps.combineOperands
  simp only [runFrom_bind, runFrom_expressionOf, Operand.toExpression, ok_mapError, h]
  rfl

/-- Relating the difference of two variables to an operand fails if the operand is refused; the
sum that is taken afterwards cannot fail. -/
theorem runFrom_difference {x y : Variable Extended} (h : x.name ≠ y.name)
    (item : Operand Extended) (b : Builder Extended L) :
    runFrom (do
        let difference ←
          (steps (L := L)).sub (.expression (.variable x)) (.expression (.variable y))
        let r ← (steps (L := L)).relate difference item .eq
        let deviation ←
          (steps (L := L)).add (.expression (.variable x)) (.expression (.variable y))
        return ((x, y), r, deviation)) b = match item.toExpression with
      | .error e => (.error (.operand e), b)
      | .ok e =>
        (.ok ((x, y), b.relabel ⟨.combined (-1) x y, e, .eq, none⟩ none,
            .expression (.combined 1 x y)),
          { b with
            constraints := b.constraints ++
              [b.relabel ⟨.combined (-1) x y, e, .eq, none⟩ none] }) := by
  have hsub : runFrom ((steps (L := L)).sub (.expression (.variable x)) (.expression (.variable y)))
      b = _ := runFrom_combineOperands (combine_variables (-1) h) b
  have hadd : ∀ d, runFrom ((steps (L := L)).add (.expression (.variable x))
      (.expression (.variable y))) d = _ := runFrom_combineOperands (combine_variables 1 h)
  have hrelate : runFrom ((steps (L := L)).relate (.expression (.combined (-1) x y)) item .eq) b
      = _ := runFrom_relate (.combined (-1) x y) .eq item b
  rw [runFrom_bind, hsub]
  simp only
  rw [runFrom_bind, hrelate]
  cases item.toExpression with
  | error e => rfl
  | ok e =>
    simp only
    rw [runFrom_bind, hadd]
    rfl

/-- What relates the difference of two variables to an operand fails as relating it does. -/
theorem runFrom_difference_error {x y : Variable Extended} (h : x.name ≠ y.name)
    (item : Operand Extended) (b : Builder Extended L) :
    runFrom (do
        let difference ←
          (steps (L := L)).sub (.expression (.variable x)) (.expression (.variable y))
        let r ← (steps (L := L)).relate difference item .eq
        let deviation ←
          (steps (L := L)).add (.expression (.variable x)) (.expression (.variable y))
        return ((x, y), r, deviation)) b = (.error e, c) ↔
      runFrom ([item].mapM fun o => relate (.expression (.combined (-1) x y)) o .eq none) b
        = (.error e, c) := by
  have hitem : ∀ f : Operand Extended → BuilderM Extended L (Constraint Extended L),
      [item].mapM f = f item >>= fun r => pure [r] := by
    intro f
    rw [List.mapM_cons, List.mapM_nil]
    simp only [pure_bind]
  rw [runFrom_difference h, hitem, runFrom_bind_pure_error, runFrom_relate]
  cases item.toExpression with
  | error e' => exact error_eq_iff.trans error_eq_iff.symm
  | ok e' => exact iff_of_false nofun nofun

theorem runFrom_absolute_error (item : Operand Extended) :
    runFrom (Reformulation.absolute (steps (L := L)) item) b = (.error e, c) ↔
      (Recipe.Plan.splitting b.sequence item).Leaves b e c := by
  unfold Reformulation.absolute
  rw [runFrom_bind]
  by_cases hfirst : .automatic (b.sequence + 1) ∈ b.names
  · have htaken : FailsAfter b.letIn [] (.automatic (b.sequence + 1))
        (Recipe.Plan.splitting b.sequence item).helpers := .here (letIn_helper true hfirst) _
    rw [runFrom_declare_of_mem true hfirst, leaves_iff_of_taken htaken, List.append_nil]
    exact error_eq_iff
  · rw [runFrom_declare_of_not_mem true hfirst]
    simp only
    rw [runFrom_bind]
    by_cases hsecond : .automatic (b.sequence + 2) ∈ b.names
    · have hmem : .automatic ((b.withHelper true).sequence + 1) ∈ (b.withHelper true).names :=
        mem_names_withHelper.mpr (.inl hsecond)
      have htaken : FailsAfter b.letIn [Recipe.helper (b.sequence + 1) true]
          (.automatic (b.sequence + 2)) (Recipe.Plan.splitting b.sequence item).helpers :=
        .later (letIn_eq_ok hfirst) (.here (letIn_helper true hsecond) [])
      rw [runFrom_declare_of_mem true hmem, leaves_iff_of_taken htaken]
      exact error_eq_iff
    · have hne : VariableName.automatic (b.sequence + 1) ≠ .automatic (b.sequence + 2) := by
        rw [ne_eq, VariableName.automatic_inj]
        omega
      have hmem : .automatic ((b.withHelper true).sequence + 1) ∉ (b.withHelper true).names := by
        rw [mem_names_withHelper, not_or]
        exact ⟨hsecond, hne.symm⟩
      have hnew : ∀ x ∈ (Recipe.Plan.splitting b.sequence item).helpers, x.name ∉ b.names := by
        intro x hx
        rcases List.mem_pair.mp hx with rfl | rfl
        · exact hfirst
        · exact hsecond
      rw [runFrom_declare_of_not_mem true hmem, leaves_iff_of_new hnew]
      have hdeclared : { b with
          sequence := b.sequence + (Recipe.Plan.splitting b.sequence item).helpers.length
          vars := b.vars ++ (Recipe.Plan.splitting b.sequence item).helpers }
            = (b.withHelper true).withHelper true := by
        unfold withHelper
        rw [List.append_assoc]
        rfl
      rw [hdeclared]
      exact runFrom_difference_error hne item _

theorem runFrom_optimize_error {x : BuilderM Extended L (Variable Extended × List (Constraint
      Extended L))} (goal : Goal) :
    runFrom (do
        let (v, cs) ← x
        let o ← (steps (L := L)).optimize ((steps (L := L)).ofVariable v) goal
        return (o, v, cs)) b = (.error e, c) ↔ runFrom x b = (.error e, c) := by
  rw [runFrom_bind]
  rcases runFrom x b with ⟨e' | ⟨v, cs⟩, d⟩
  · exact error_eq_iff.trans error_eq_iff.symm
  · have hset : runFrom ((steps (L := L)).optimize (.expression (.variable v)) goal) d
        = (.ok ⟨.variable v, goal⟩, { d with objective := some ⟨.variable v, goal⟩ }) := rfl
    have hlast : (steps (L := L)).ofVariable v = .expression (.variable v) := rfl
    simp only
    rw [runFrom_bind, hlast, hset]
    exact iff_of_false nofun nofun

theorem runFrom_run_error (r : Recipe Extended) :
    runFrom r.run b = (.error e, c) ↔ (r.plan b.sequence).Leaves b e c := by
  cases r with
  | largest items => exact (runFrom_bind_pure_error b).trans (runFrom_bounding_error .ge items)
  | smallest items => exact (runFrom_bind_pure_error b).trans (runFrom_bounding_error .le items)
  | absolute item => exact (runFrom_bind_pure_error b).trans (runFrom_absolute_error item)
  | maximizeSmallest items =>
    refine (runFrom_bind_pure_error b).trans ((runFrom_optimize_error .max).trans ?_)
    exact runFrom_bounding_error .le items
  | minimizeLargest items =>
    refine (runFrom_bind_pure_error b).trans ((runFrom_optimize_error .min).trans ?_)
    exact runFrom_bounding_error .ge items

end Plans

theorem length_helpers_pos (r : Recipe Extended) (n : ℕ) : 0 < (r.plan n).helpers.length := by
  cases r with
  | absolute item => exact Nat.zero_lt_two
  | _ => exact Nat.zero_lt_one

/-- **What a reformulation leaves when it fails.** On any builder, a reformulation fails if the name
of a helper is taken, and then leaves the helpers before it, or else if an operand is refused, and
then leaves all helpers and the constraints with the operands before. The number of the first helper
is used up in any case, so no failing reformulation leaves the builder as it was; only the objective
stays. -/
theorem failed_recipe_leaves (r : Recipe Extended) (b c : Builder Extended L)
    (e : BuilderError Extended) :
    (runFrom r.run b = (.error e, c) ↔ (r.plan b.sequence).Leaves b e c) ∧
      (runFrom r.run b = (.error e, c) → b.sequence < c.sequence ∧ c.objective = b.objective) := by
  refine ⟨runFrom_run_error r, fun h => ?_⟩
  have hpos := length_helpers_pos r b.sequence
  cases (runFrom_run_error r).mp h with
  | taken h =>
    refine ⟨?_, rfl⟩
    show b.sequence < b.sequence + _ + 1
    omega
  | refused hnew h =>
    refine ⟨?_, rfl⟩
    show b.sequence < b.sequence + _
    omega

/-- A builder with one variable. -/
def lone : Builder Extended String :=
  after (declare .numeric (VariableName.ofText? "x") none none) empty

/-- The largest of the variable and a text: the text is refused, but a helper is registered, with
its constraint with the variable. -/
theorem refused_operand_leaves_traces : lone.Reachable ∧ ∃ e c,
    runFrom (Recipe.largest [.expression (.term ⟨"x", by decide⟩ (rational 1)),
      .other "'oops'"]).run lone = (.error e, c) ∧
    lone.vars.length = 1 ∧ c.vars.length = 2 ∧ lone.constraints.length = 0 ∧
    c.constraints.length = 1 ∧ lone.sequence = 0 ∧ c.sequence = 1 :=
  ⟨.step (.refl _) (.declare _ _ _ _ _), _, _, rfl, by decide +kernel, by decide +kernel, rfl,
    by decide +kernel, by decide +kernel, by decide +kernel⟩

end Builder
end LinModel
