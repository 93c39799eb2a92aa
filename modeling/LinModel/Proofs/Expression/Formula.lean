import LinModel.Proofs.Expression.Value

/-!
# Formulas mean what they say

A formula is a linear form as it is written: expressions and numbers under the operators, signs,
sums and means, nested in any way. Building it applies the operators from the leaves up, each to
the operands that the parts below it gave.

A formula is linear if it adds and subtracts operands of which one is an expression at least,
multiplies by numbers, divides by numbers other than zero, and takes means of something. A linear
formula that is not a bare number builds an expression whose value at every point is that of the
formula, and a relation between two of them holds where their values compare as written. The
invariant of the induction is `Operand.Stands`: what a part builds is a number exactly if the part
is one, and it has the names and the value of the part.

Key definitions: `Formula`, `Formula.build`, `Formula.valueAt`, `Formula.IsLinear`,
`Operand.Stands`.
Key theorems: `Operand.Stands.combine`, `Formula.build_stands`, `Formula.build_and_relate`.
-/
namespace LinModel

open Extended

/-- A linear form as it is written. -/
inductive Formula (K : Type)
  | expression (e : Expression K)
  | number (k : K)
  | apply (op : Operation) (left right : Formula K)
  | negated (f : Formula K)
  | positive (f : Formula K)
  | sum (items : List (Formula K))
  | average (items : List (Formula K))

namespace Formula

variable {K : Type} [Scalar K]

/-- Whether the formula is a number and nothing else. -/
def isNumber : Formula K → Bool
  | .number _ => true
  | _ => false

mutual

/-- The names that occur. -/
def names : Formula K → List VariableName
  | .expression e => e.names
  | .number _ => []
  | .apply _ a b => a.names ++ b.names
  | .negated f | .positive f => f.names
  | .sum items | .average items => namesOf items

/-- The names that occur in a list of formulas. -/
def namesOf : List (Formula K) → List VariableName
  | [] => []
  | f :: items => f.names ++ namesOf items

end

/-- The operand with its sign changed or kept by `f`; a bare number is not an expression. -/
def signed (f : Expression K → Except (ExpressionError K) (Expression K)) :
    Operand K → Except (OperatorError K) (Operand K)
  | .expression e => do return .expression (← (f e).mapError .expression)
  | _ => .error .notApplicable

mutual

/-- What the operators make of a formula. -/
def build : Formula K → Except (OperatorError K) (Operand K)
  | .expression e => .ok (.expression e)
  | .number k => .ok (.number k)
  | .apply op a b => do
    let left ← a.build
    let right ← b.build
    return .expression (← left.combine op right)
  | .negated f => do signed Expression.neg (← f.build)
  | .positive f => do signed .ok (← f.build)
  | .sum items => do
    return .expression (← (Expression.sum (← buildAll items)).mapError .expression)
  | .average items => do
    return .expression (← (Expression.average (← buildAll items)).mapError .expression)

/-- The expressions of the items of a sum. -/
def buildAll : List (Formula K) → Except (OperatorError K) (List (Expression K))
  | [] => .ok []
  | f :: items => do
    let e ← (← f.build).side
    return e :: (← buildAll items)

end

/-- The relation of two formulas. -/
def relate {L : Type} (r : Relationship) (f g : Formula K) :
    Except (OperatorError K) (Constraint K L) := do
  let left ← f.build
  let right ← g.build
  left.relate r right

end Formula

/-! ### Values -/

namespace Operation

/-- The operation on rationals. -/
def onRationals (p q : ℚ) : Operation → ℚ
  | .add => p + q
  | .sub => p - q
  | .mul => p * q
  | .div => p / q

/-- Whether the operation is linear, given which of its operands are numbers. -/
def isLinear (left right : Bool) : Operation → Bool
  | .add | .sub => !(left && right)
  | .mul => left != right
  | .div => !left && right

end Operation

namespace Formula

mutual

/-- The value of a formula at a point. -/
def valueAt (v : Point) : Formula Extended → ℚ
  | .expression e => e.exactAt v
  | .number k => k.toRat
  | .apply op a b => op.onRationals (a.valueAt v) (b.valueAt v)
  | .negated f => -f.valueAt v
  | .positive f => f.valueAt v
  | .sum items => sumAt v items
  | .average items => sumAt v items / items.length

/-- The sum of the values of a list of formulas. -/
def sumAt (v : Point) : List (Formula Extended) → ℚ
  | [] => 0
  | f :: items => f.valueAt v + sumAt v items

end

/-- Formulas of sound expressions and finite numbers whose operations are linear. -/
inductive IsLinear : Formula Extended → Prop
  | expression {e : Expression Extended} (h : e.IsSound) : IsLinear (.expression e)
  | number (q : ℚ) : IsLinear (.number (rational q))
  | apply {op : Operation} {a b : Formula Extended} (ha : IsLinear a) (hb : IsLinear b)
      (h : op.isLinear a.isNumber b.isNumber = true)
      (hne : op = .div → b ≠ .number (rational 0)) : IsLinear (.apply op a b)
  | negated {f : Formula Extended} (h : IsLinear f) (hf : f.isNumber = false) :
      IsLinear (.negated f)
  | positive {f : Formula Extended} (h : IsLinear f) (hf : f.isNumber = false) :
      IsLinear (.positive f)
  | sum {items : List (Formula Extended)} (h : ∀ f ∈ items, IsLinear f) : IsLinear (.sum items)
  | average {items : List (Formula Extended)} (h : ∀ f ∈ items, IsLinear f)
      (hne : items ≠ []) : IsLinear (.average items)

end Formula

/-- An operand with given names and value, and whether it is a number. -/
inductive Operand.Stands (names : List VariableName) (value : Point → ℚ) :
    Bool → Operand Extended → Prop
  | expression {e : Expression Extended} (hs : e.IsSound) (hn : e.names ⊆ names)
      (hv : ∀ v, e.exactAt v = value v) : Stands names value false (.expression e)
  | number {q : ℚ} (hv : ∀ v, q = value v) : Stands names value true (.number (rational q))

namespace Operand

open Expression

variable {names names' : List VariableName} {x y : Point → ℚ} {i j : Bool}
  {a b : Operand Extended}

theorem Stands.of_computes {ε : Type} {result : Except ε (Expression Extended)}
    (hk : Keeps result names) (hc : Computes result x) :
    ∃ e, result = .ok e ∧ Stands names x false (.expression e) := by
  obtain ⟨e, he, hv⟩ := hc
  obtain ⟨hs, hn⟩ := hk e he
  exact ⟨e, he, .expression hs hn hv⟩

/-- **A linear operation gives an expression.** It has the names of both operands and the value
of the operation on theirs. -/
theorem Stands.combine {op : Operation} (ha : Stands names x i a) (hb : Stands names' y j b)
    (h : op.isLinear i j = true) (hne : op = .div → ∀ v, y v ≠ 0) :
    ∃ e, a.combine op b = .ok e ∧
      Stands (names ++ names') (fun v => op.onRationals (x v) (y v)) false (.expression e) := by
  have hleft : names ⊆ names ++ names' := List.subset_append_left _ _
  have hright : names' ⊆ names ++ names' := List.subset_append_right _ _
  cases ha with
  | @expression e hs hn hv =>
    have hen : e.names ⊆ names ++ names' := List.Subset.trans hn hleft
    cases hb with
    | @expression e' hs' hn' hv' =>
      have hboth : e.names ++ e'.names ⊆ names ++ names' :=
        List.append_subset.mpr ⟨hen, List.Subset.trans hn' hright⟩
      cases op with
      | add =>
        refine of_computes (.mapError _ ((keeps_combine _ hs).mono hboth)) ?_
        exact ((computes_add hs hs').congr fun v => by rw [hv, hv']; rfl).mapError _
      | sub =>
        refine of_computes (.mapError _ ((keeps_combine _ hs).mono hboth)) ?_
        exact ((computes_sub hs hs').congr fun v => by rw [hv, hv']; rfl).mapError _
      | mul => cases h
      | div => cases h
    | @number q hq =>
      cases op with
      | add =>
        refine of_computes (.mapError _ ((keeps_addScalar hs _).mono hen)) ?_
        exact ((computes_addScalar hs q).congr fun v => by rw [hv, hq v]; rfl).mapError _
      | sub =>
        refine of_computes (.mapError _ ((keeps_subScalar hs _).mono hen)) ?_
        exact ((computes_subScalar hs q).congr fun v => by rw [hv, hq v]; rfl).mapError _
      | mul =>
        refine of_computes (.mapError _ ((keeps_scale hs _).mono hen)) ?_
        exact ((computes_scale hs q).congr fun v => by rw [hv, hq v]; rfl).mapError _
      | div =>
        have hq0 : q ≠ 0 := by
          rw [hq 0]
          exact hne rfl 0
        refine of_computes (.mapError _ ((keeps_divide hs _).mono hen)) ?_
        exact ((computes_divide hs hq0).congr fun v => by rw [hv, hq v]; rfl).mapError _
  | @number q hq =>
    cases hb with
    | @expression e hs hn hv =>
      have hen : e.names ⊆ names ++ names' := List.Subset.trans hn hright
      cases op with
      | add =>
        refine of_computes (.mapError _ ((keeps_addScalar hs _).mono hen)) ?_
        refine ((computes_addScalar hs q).congr fun v => ?_).mapError _
        rw [hv, hq v, add_comm]
        rfl
      | sub =>
        refine of_computes (.mapError _ ((keeps_scalarSub hs _).mono hen)) ?_
        exact ((computes_scalarSub hs q).congr fun v => by rw [hv, hq v]; rfl).mapError _
      | mul =>
        refine of_computes (.mapError _ ((keeps_scale hs _).mono hen)) ?_
        refine ((computes_scale hs q).congr fun v => ?_).mapError _
        rw [hv, hq v, mul_comm]
        rfl
      | div => cases h
    | number hq' => cases op <;> cases h

/-- An expression is related to a number as the sides are arranged. -/
theorem relate_number {K L : Type} [Scalar K] {r r' : Relationship} {a b : Operand K}
    {e e' : Expression K} {k : K}
    (h : r.arrange? isExpression isUsable a b = some (.expression e, .number k, r'))
    (he : ofScalar k = .ok e') : a.relate (L := L) r b = .ok ⟨e, e', r', none⟩ := by
  simp [relate, h, side, toExpression, he]

/-- A relation of two operands, one of which is an expression, holds where their values compare as
written. -/
theorem Stands.relate {L : Type} (r : Relationship) (ha : Stands names x i a)
    (hb : Stands names' y j b) (h : (i && j) = false) :
    ∃ c : Constraint Extended L, a.relate r b = .ok c ∧
      ∀ v, c.HoldsAt v ↔ r.Relates (x v) (y v) := by
  cases ha with
  | @expression e hs hn hv =>
    cases hb with
    | @expression e' hs' hn' hv' =>
      exact ⟨_, rfl, fun v => by rw [Constraint.holdsAt_iff hs hs', hv, hv']⟩
    | @number q hq =>
      obtain ⟨e', he', hv'⟩ := computes_ofScalar q
      have hs' := (keeps_ofScalar (rational q) e' he').1
      refine ⟨⟨e, e', r, none⟩, relate_number rfl he', fun v => ?_⟩
      rw [Constraint.holdsAt_iff hs hs', hv, hv', hq v]
  | @number q hq =>
    cases hb with
    | @expression e hs hn hv =>
      obtain ⟨e', he', hv'⟩ := computes_ofScalar q
      have hs' := (keeps_ofScalar (rational q) e' he').1
      refine ⟨⟨e, e', r.reversed, none⟩, relate_number rfl he', fun v => ?_⟩
      rw [Constraint.holdsAt_iff hs hs', hv, hv', hq v, Relationship.relates_reversed]
    | number hq' => cases h

end Operand

namespace Formula

open Operand Expression

/-- A part of a formula builds an operand that stands for it. -/
def Builds (f : Formula Extended) : Prop :=
  ∃ o, f.build = .ok o ∧ Stands f.names f.valueAt f.isNumber o

/-- The items of a sum stand for expressions with the names and the sum of the items. -/
theorem buildAll_eq_ok : ∀ {items : List (Formula Extended)}, (∀ f ∈ items, f.Builds) →
    ∃ es, buildAll items = .ok es ∧ (∀ e ∈ es, e.IsSound) ∧
      es.flatMap Expression.names ⊆ namesOf items ∧ es.length = items.length ∧
      ∀ v, (es.map (exactAt · v)).sum = sumAt v items
  | [], _ => ⟨[], rfl, nofun, nofun, rfl, fun _ => rfl⟩
  | f :: items, h => by
    obtain ⟨⟨o, ho, hstands⟩, hitems⟩ := List.forall_mem_cons.mp h
    obtain ⟨es, hes, hsound, hnames, hlen, hsum⟩ := buildAll_eq_ok hitems
    have hside : ∃ e, o.side = .ok e ∧ e.IsSound ∧ e.names ⊆ f.names ∧
        ∀ v, e.exactAt v = f.valueAt v := by
      generalize f.isNumber = i at hstands
      cases hstands with
      | expression hs hn hv => exact ⟨_, rfl, hs, hn, hv⟩
      | @number q hq =>
        obtain ⟨e, he, hv⟩ := computes_ofScalar q
        obtain ⟨hs, hn⟩ := keeps_ofScalar (rational q) e he
        exact ⟨e, by simp [side, toExpression, he], hs, List.Subset.trans hn (List.nil_subset _),
          fun v => by rw [hv, hq v]⟩
    obtain ⟨e, he, hs, hn, hv⟩ := hside
    refine ⟨e :: es, by simp [buildAll, ho, he, hes], List.forall_mem_cons.mpr ⟨hs, hsound⟩,
      ?_, by simp [hlen], fun v => by simp [sumAt, hv, hsum]⟩
    rw [List.flatMap_cons, namesOf]
    exact List.append_subset.mpr ⟨List.Subset.trans hn (List.subset_append_left _ _),
      List.Subset.trans hnames (List.subset_append_right _ _)⟩

/-- **A linear formula builds an operand that stands for it.** -/
theorem build_stands {f : Formula Extended} (h : f.IsLinear) : f.Builds := by
  induction h with
  | expression h => exact ⟨_, rfl, .expression h (List.Subset.refl _) fun _ => rfl⟩
  | number q => exact ⟨_, rfl, .number fun _ => rfl⟩
  | @apply op a b ha hb hop hne iha ihb =>
    obtain ⟨l, hl, hls⟩ := iha
    obtain ⟨r, hr, hrs⟩ := ihb
    have hdiv : op = .div → ∀ v, b.valueAt v ≠ 0 := by
      rintro rfl v
      cases hb with
      | number q => exact fun h0 => hne rfl (congrArg (Formula.number ∘ rational) h0)
      | _ => simp [Operation.isLinear, isNumber] at hop
    obtain ⟨e, he, hs⟩ := hls.combine hrs hop hdiv
    exact ⟨.expression e, by simp [build, hl, hr, he], hs⟩
  | @negated f h hf ih =>
    obtain ⟨o, ho, hstands⟩ := ih
    rw [hf] at hstands
    cases hstands with
    | @expression e hs hn hv =>
      obtain ⟨e', he', hs'⟩ := Stands.of_computes ((keeps_neg hs).mono hn)
        ((computes_neg hs).congr fun v => by rw [hv])
      exact ⟨.expression e', by simp [build, ho, signed, he'], hs'⟩
  | @positive f h hf ih =>
    obtain ⟨o, ho, hstands⟩ := ih
    rw [hf] at hstands
    cases hstands with
    | @expression e hs hn hv =>
      exact ⟨.expression e, by simp [build, ho, signed], .expression hs hn hv⟩
  | @sum items h ih =>
    obtain ⟨es, hes, hsound, hnames, hlen, hsum⟩ := buildAll_eq_ok ih
    obtain ⟨e, he, hs⟩ := Stands.of_computes ((keeps_sum es).mono hnames)
      ((computes_sum hsound).congr hsum)
    exact ⟨.expression e, by simp [build, hes, he], hs⟩
  | @average items h hne ih =>
    obtain ⟨es, hes, hsound, hnames, hlen, hsum⟩ := buildAll_eq_ok ih
    have hne' : es ≠ [] := fun h => hne (List.length_eq_zero_iff.mp (by rw [← hlen, h]; rfl))
    obtain ⟨e, he, hs⟩ := Stands.of_computes ((keeps_average es).mono hnames)
      ((computes_average hsound hne').congr fun v => by rw [hsum, hlen])
    exact ⟨.expression e, by simp [build, hes, he], hs⟩

/-- **Operators mean what they say.** A linear formula that is not a bare number builds an
expression over its names, each at most once, whose value at every point is the formula's; and two
linear formulas, one of which is not a bare number, build a constraint that holds exactly where
their values compare as written. -/
theorem build_and_relate {L : Type} :
    (∀ f : Formula Extended, f.IsLinear → f.isNumber = false →
      ∃ e, f.build = .ok (.expression e) ∧ e.names ⊆ f.names ∧ e.names.Nodup ∧
        ∀ v, e.valueAt v = rational (f.valueAt v)) ∧
    (∀ (r : Relationship) (f g : Formula Extended), f.IsLinear → g.IsLinear →
      (f.isNumber && g.isNumber) = false →
      ∃ c : Constraint Extended L, relate r f g = .ok c ∧
        ∀ v, c.HoldsAt v ↔ r.Relates (f.valueAt v) (g.valueAt v)) := by
  constructor
  · intro f h hf
    obtain ⟨o, ho, hstands⟩ := build_stands h
    rw [hf] at hstands
    cases hstands with
    | @expression e hs hn hv =>
      exact ⟨e, ho, hn, hs.nodup, fun v => by rw [valueAt_eq hs, hv]⟩
  · intro r f g hf hg hfg
    obtain ⟨a, ha, hsa⟩ := build_stands hf
    obtain ⟨b, hb, hsb⟩ := build_stands hg
    obtain ⟨c, hc, hv⟩ := hsa.relate (L := L) r hsb hfg
    exact ⟨c, by simp [relate, ha, hb, hc], hv⟩

/-- The formula `(5 - 3·x1) / 2`. -/
def halved : Formula Extended :=
  .apply .div
    (.apply .sub (.number (rational 5)) (.expression (.term (.automatic 1) (rational 3))))
    (.number (rational 2))

theorem halved_isLinear : halved.IsLinear :=
  .apply (.apply (.number 5) (.expression (Expression.isSound_term _ 3)) rfl (by simp))
    (.number 2) rfl (by simp)

/-- The formula builds an expression with its value, which is at most one where the formula is. -/
theorem halved_builds :
    (∃ e, halved.build = .ok (.expression e) ∧
      ∀ v, e.valueAt v = rational ((5 - 3 * v (.automatic 1)) / 2)) ∧
    ∃ c : Constraint Extended String, relate .le halved (.number (rational 1)) = .ok c ∧
      ∀ v, c.HoldsAt v ↔ (5 - 3 * v (.automatic 1)) / 2 ≤ 1 := by
  have hvalue : ∀ v, halved.valueAt v = (5 - 3 * v (.automatic 1)) / 2 := fun v => by
    simp [halved, valueAt, Operation.onRationals]
  constructor
  · obtain ⟨e, he, -, -, hv⟩ :=
      (build_and_relate (L := String)).1 halved halved_isLinear rfl
    exact ⟨e, he, fun v => by rw [hv, hvalue]⟩
  · obtain ⟨c, hc, hv⟩ :=
      (build_and_relate (L := String)).2 .le halved (.number (rational 1)) halved_isLinear
        (.number 1) rfl
    exact ⟨c, hc, fun v => by rw [hv, hvalue]; rfl⟩

end Formula
end LinModel
