import LinModel.Proofs.Expression.Numbers

/-!
# Arithmetic keeps expressions well formed

A well-formed expression has finite numbers and no name twice, and if it is a single term its
coefficient is not zero. Whatever the operators, sums and means build from well-formed expressions
and numbers, in any order and nesting, is well formed (`Formula.isWellFormed_of_build`): the numbers
of a result are checked where it is made, merging puts a name in one place, and a single term whose
coefficient becomes zero, by cancelling or by underflow, gives way to the empty expression.

Nothing is lost on the way. Two single terms of one name give a single term or nothing
(`Expression.SingleTerm`), and every application of an operator returns the numbers that it
computes, or is refused if one of them is not finite (`Expression.Computed`).

Key definitions: `Expression.IsWellFormed`, `Expression.SingleTerm`, `Formula.IsMadeOf`,
`ArithmeticIsSafe`.
Key theorems: `Operand.makesWellFormed_combine`, `Formula.isWellFormed_of_build`,
`Expression.singleTerm_combine`, `ArithmeticIsSafe.of_lawful`.
-/
namespace LinModel

variable {K : Type} [Scalar K]

/-! ### Well-formed expressions -/

namespace Expression

/-- All numbers are finite, no name occurs twice, and a single term is not zero. -/
structure IsWellFormed (e : Expression K) : Prop extends IsSound e where
  nonzero : ∀ name c, e = .term name c → Scalar.isZero c = false

/-- What is returned is no single term with the coefficient zero. -/
def MakesNonzero {ε : Type} (result : Except ε (Expression K)) : Prop :=
  ∀ name c, result = .ok (.term name c) → Scalar.isZero c = false

/-- What is returned is well formed. -/
def MakesWellFormed {ε : Type} (result : Except ε (Expression K)) : Prop :=
  ∀ e, result = .ok e → e.IsWellFormed

section Makes

variable {ε ε' α : Type}

theorem MakesNonzero.bind {x : Except ε α} {f : α → Except ε (Expression K)}
    (h : ∀ a, MakesNonzero (f a)) : MakesNonzero (x >>= f) := by
  intro name c hc
  obtain ⟨a, -, ha⟩ := bind_eq_ok.mp hc
  exact h a name c ha

theorem Keeps.makesWellFormed {result : Except ε (Expression K)} {names : List VariableName}
    (h : Keeps result names) (hn : MakesNonzero result) : MakesWellFormed result := by
  rintro e rfl
  exact { toIsSound := (h e rfl).1, nonzero := fun name c hc => hn name c (congrArg _ hc) }

theorem MakesWellFormed.mapError {result : Except ε (Expression K)} (g : ε → ε')
    (h : MakesWellFormed result) : MakesWellFormed (result.mapError g) :=
  fun e he => h e (mapError_eq_ok.mp he)

theorem MakesWellFormed.error (x : ε) : MakesWellFormed (.error x : Except ε (Expression K)) :=
  nofun

end Makes

/-! ### What operations make -/

variable {e f : Expression K}

/-- A linear form is no single term. -/
theorem makesNonzero_ofCoefficients (cs : Coefficients K) (k : K) :
    MakesNonzero (ofCoefficients cs k) := by
  intro name c hc
  cases (ofCoefficients_eq_ok.mp hc).1

/-- A single term gives way to the empty expression if it is zero. -/
theorem makesNonzero_ofTermOrEmpty (name : VariableName) (c : K) :
    MakesNonzero (ofTermOrEmpty name c) := by
  intro name' c' h
  unfold ofTermOrEmpty at h
  split_ifs at h with hzero
  · cases h
  · obtain ⟨k, hk, hterm⟩ := bind_eq_ok.mp h
    obtain ⟨rfl, -⟩ := finite_eq_ok.mp hk
    cases hterm
    exact Bool.eq_false_iff.mpr hzero

theorem makesNonzero_mapNumbers (g : K → K) : ∀ e : Expression K, MakesNonzero (e.mapNumbers g)
  | .variable _ => makesNonzero_ofTermOrEmpty _ _
  | .term _ _ => makesNonzero_ofTermOrEmpty _ _
  | .linear _ _ => makesNonzero_ofCoefficients _ _

theorem makesNonzero_combine (sign : K) (e f : Expression K) :
    MakesNonzero (combine sign e f) := by
  unfold combine
  split
  · split_ifs
    · exact makesNonzero_ofTermOrEmpty _ _
    · exact makesNonzero_ofCoefficients _ _
  · exact makesNonzero_ofCoefficients _ _

theorem makesNonzero_shift (e : Expression K) (k : K) : MakesNonzero (e.shift k) :=
  makesNonzero_ofCoefficients _ _

theorem makesNonzero_scale (e : Expression K) (k : K) : MakesNonzero (e.scale k) := by
  refine .bind fun k' => ?_
  split_ifs
  · nofun
  · exact makesNonzero_mapNumbers _ e

theorem makesNonzero_divide (e : Expression K) (k : K) : MakesNonzero (e.divide k) := by
  refine .bind fun k' => ?_
  split_ifs
  · nofun
  · exact makesNonzero_mapNumbers _ e

theorem makesNonzero_average (items : List (Expression K)) : MakesNonzero (average items) := by
  unfold average
  split_ifs
  · nofun
  · exact .bind fun total => makesNonzero_divide total _

variable [Scalar.LawfulUnits K]

/-- **An operation with a number makes well-formed expressions.** -/
theorem makesWellFormed_number (op : Operation) (he : e.IsSound) (k : K) :
    MakesWellFormed (op.onExpression.number e k) := by
  cases op with
  | add => exact (keeps_addScalar he k).makesWellFormed (.bind fun k' => makesNonzero_shift e k')
  | sub => exact (keeps_subScalar he k).makesWellFormed (.bind fun k' => makesNonzero_shift e _)
  | mul => exact (keeps_scale he k).makesWellFormed (makesNonzero_scale e k)
  | div => exact (keeps_divide he k).makesWellFormed (makesNonzero_divide e k)

theorem makesWellFormed_scalarSub (he : e.IsSound) (k : K) : MakesWellFormed (scalarSub k e) :=
  (keeps_scalarSub he k).makesWellFormed
    (.bind fun _ => .bind fun negated => makesNonzero_shift negated _)

theorem makesWellFormed_combine (sign : K) (he : e.IsSound) (f : Expression K) :
    MakesWellFormed (combine sign e f) :=
  (keeps_combine sign he).makesWellFormed (makesNonzero_combine sign e f)

end Expression

/-! ### Operators and formulas -/

open Expression

/-- An expression among the operands is well formed. -/
def Operand.IsWellFormed (o : Operand K) : Prop := ∀ e, o = .expression e → e.IsWellFormed

section Units

variable [Scalar.LawfulUnits K]

/-- **An operator makes well-formed expressions of well-formed operands.** -/
theorem Operand.makesWellFormed_combine (op : Operation) {x y : Operand K} (hx : x.IsWellFormed)
    (hy : y.IsWellFormed) : MakesWellFormed (x.combine op y) := by
  match x, y with
  | .expression e, .expression f =>
    have he := (hx e rfl).toIsSound
    cases op with
    | add => exact (Expression.makesWellFormed_combine _ he f).mapError _
    | sub => exact (Expression.makesWellFormed_combine _ he f).mapError _
    | mul | div => exact .error _
  | .expression e, .number k =>
    exact (makesWellFormed_number op (hx e rfl).toIsSound k).mapError _
  | .number k, .expression e =>
    have he := (hy e rfl).toIsSound
    cases op with
    | add => exact (makesWellFormed_number .add he k).mapError _
    | sub => exact (makesWellFormed_scalarSub he k).mapError _
    | mul => exact (makesWellFormed_number .mul he k).mapError _
    | div => exact .error _
  | .number _, .number _ | .other _, _ | .expression _, .other _ | .number _, .other _ =>
    exact .error _

namespace Formula

/-- All expressions that a formula is written with have a property. -/
inductive IsMadeOf (P : Expression K → Prop) : Formula K → Prop
  | expression {e : Expression K} (h : P e) : IsMadeOf P (.expression e)
  | number (k : K) : IsMadeOf P (.number k)
  | apply (op : Operation) {a b : Formula K} (ha : IsMadeOf P a) (hb : IsMadeOf P b) :
      IsMadeOf P (.apply op a b)
  | negated {f : Formula K} (h : IsMadeOf P f) : IsMadeOf P (.negated f)
  | positive {f : Formula K} (h : IsMadeOf P f) : IsMadeOf P (.positive f)
  | sum {items : List (Formula K)} (h : ∀ f ∈ items, IsMadeOf P f) : IsMadeOf P (.sum items)
  | average {items : List (Formula K)} (h : ∀ f ∈ items, IsMadeOf P f) : IsMadeOf P (.average items)

/-- **What is built of well-formed expressions is well formed**, whatever operators are applied and
in which order. -/
theorem isWellFormed_of_build {f : Formula K} (h : f.IsMadeOf IsWellFormed) :
    ∀ o, f.build = .ok o → o.IsWellFormed := by
  -- a result that is an expression is well formed if the operation makes well-formed ones
  have hmade : ∀ {r : Except (OperatorError K) (Expression K)} {o : Operand K},
      MakesWellFormed r → Operand.expression <$> r = .ok o → o.IsWellFormed := by
    intro r o hr ho e he
    subst he
    cases r with
    | error x => cases ho
    | ok e' =>
      cases ho
      exact hr e rfl
  induction h with
  | expression h =>
    rintro _ ⟨⟩ _ ⟨⟩
    exact h
  | number k =>
    rintro _ ⟨⟩ _ ⟨⟩
  | apply op ha hb iha ihb =>
    intro o ho
    obtain ⟨x, hx, ho⟩ := bind_eq_ok.mp ho
    obtain ⟨y, hy, ho⟩ := bind_eq_ok.mp ho
    exact hmade (Operand.makesWellFormed_combine op (iha x hx) (ihb y hy)) ho
  | negated h ih =>
    intro o ho
    obtain ⟨x, hx, ho⟩ := bind_eq_ok.mp ho
    cases x with
    | expression e =>
      have he := (ih _ hx e rfl).toIsSound
      have hneg := (keeps_neg he).makesWellFormed (makesNonzero_mapNumbers _ e)
      exact hmade (hneg.mapError _) ho
    | number k => cases ho
    | other shown => cases ho
  | positive h ih =>
    intro o ho
    obtain ⟨x, hx, ho⟩ := bind_eq_ok.mp ho
    cases x with
    | expression e =>
      cases ho
      exact ih _ hx
    | number k => cases ho
    | other shown => cases ho
  | sum h ih =>
    intro o ho
    obtain ⟨es, -, ho⟩ := bind_eq_ok.mp ho
    exact hmade (((keeps_sum es).makesWellFormed (makesNonzero_ofCoefficients _ _)).mapError _) ho
  | average h ih =>
    intro o ho
    obtain ⟨es, -, ho⟩ := bind_eq_ok.mp ho
    exact hmade (((keeps_average es).makesWellFormed (makesNonzero_average es)).mapError _) ho

end Formula

end Units

/-! ### Single terms -/

namespace Expression

/-- What two single terms of one name come to, by the coefficient that is computed: nothing is left
of it exactly if it is zero; otherwise it is the coefficient of a single term, unless it is not
finite. -/
structure SingleTerm (name : VariableName) (c : K)
    (result : Except (OperatorError K) (Expression K)) : Prop where
  empty_iff : result = .ok empty ↔ Scalar.isZero c = true
  term : Scalar.isZero c = false → Scalar.isFinite c = true → result = .ok (.term name c)
  refused : Scalar.isFinite c = false → result = .error (.expression (.notFinite c))

variable [Scalar.LawfulZeros K] {name : VariableName} {a b : K} {e f : Expression K}

theorem singleTerm_ofTermOrEmpty (name : VariableName) (c : K) :
    SingleTerm name c ((ofTermOrEmpty name c).mapError .expression) := by
  by_cases hzero : Scalar.isZero c = true
  · have hfinite := Scalar.LawfulZeros.isFinite_of_isZero hzero
    have hempty : ofTermOrEmpty name c = .ok empty := if_pos hzero
    rw [hempty]
    exact ⟨⟨fun _ => hzero, fun _ => rfl⟩, by simp [hzero], by simp [hfinite]⟩
  · have hterm : ofTermOrEmpty name c = ofTerm name c := if_neg hzero
    rw [hterm, ofTerm]
    by_cases hfinite : Scalar.isFinite c = true
    · rw [finite_eq_ok.mpr ⟨rfl, hfinite⟩]
      exact ⟨⟨(fun h => by cases h), fun h => absurd h hzero⟩, fun _ _ => rfl, by simp [hfinite]⟩
    · have herror : finite c = .error (.notFinite c) := if_neg hfinite
      rw [herror]
      exact ⟨⟨(fun h => by cases h), fun h => absurd h hzero⟩, fun _ h => absurd h hfinite,
        fun _ => rfl⟩

theorem singleTerm_combine (sign : K) (he : e.term? = some (name, a))
    (hf : f.term? = some (name, b)) :
    SingleTerm name (a + sign * b) ((combine sign e f).mapError .expression) := by
  have hterm : combine sign e f = ofTermOrEmpty name (a + sign * b) := by
    rw [combine, he, hf]
    exact if_pos rfl
  rw [hterm]
  exact singleTerm_ofTermOrEmpty name _

end Expression

/-! ### Arithmetic -/

/-- What arithmetic on expressions guarantees, whatever is applied in whichever order. -/
structure ArithmeticIsSafe (K : Type) [Scalar K] : Prop where
  /-- What is built of well-formed expressions is well formed. -/
  wellFormed : ∀ f : Formula K, f.IsMadeOf IsWellFormed →
    ∀ e, f.build = .ok (.expression e) → e.IsWellFormed
  /-- The sum of two single terms of one name. -/
  add_terms : ∀ (e f : Expression K) (name : VariableName) (a b : K),
    e.term? = some (name, a) → f.term? = some (name, b) →
      SingleTerm name (a + b) (Operand.combine .add (.expression e) (.expression f))
  /-- The difference of two single terms of one name. -/
  sub_terms : ∀ (e f : Expression K) (name : VariableName) (a b : K),
    e.term? = some (name, a) → f.term? = some (name, b) →
      SingleTerm name (a - b) (Operand.combine .sub (.expression e) (.expression f))
  /-- A product with zero is the empty expression, on either side. -/
  mul_zero : ∀ (e : Expression K) (k : K), Scalar.isZero k = true →
    Operand.combine .mul (.expression e) (.number k) = .ok empty ∧
      Operand.combine .mul (.number k) (.expression e) = .ok empty
  /-- Nothing is divided by zero. -/
  div_zero : ∀ (e : Expression K) (k : K), Scalar.isZero k = true →
    Operand.combine .div (.expression e) (.number k) = .error (.expression (.divisionByZero e))
  /-- No operation takes a number that is not finite. -/
  refuses : ∀ (op : Operation) (e : Expression K) (k : K), Scalar.isFinite k = false →
    Operand.combine op (.expression e) (.number k) = .error (.expression (.notFinite k)) ∧
      (op ≠ .div →
        Operand.combine op (.number k) (.expression e) = .error (.expression (.notFinite k)))
  /-- Every linear operation returns the numbers that it computes, or is refused for one of them
  that is not finite. -/
  numbers_combine : ∀ (op : Operation) (x y : Operand K), x.IsProper → y.IsProper →
    op.isLinear x.isNumber y.isNumber = true →
    (op = .div → Scalar.isZero (y.numberAt none) = false) →
      ∃ r, Operand.combine op x y = r.mapError .expression ∧
        Computed (fun place => op.computed x y place) r
  /-- Every number changes its sign. -/
  numbers_neg : ∀ e : Expression K, e.IsSound → Computed (fun place => -e.numberAt place) e.neg
  /-- Every number of a sum is added up from the left. -/
  numbers_sum : ∀ items : List (Expression K), (∀ e ∈ items, e.IsSound) →
    Computed (fun place => items.foldl (fun total e => total + e.numberAt place) Scalar.zero)
      (sum items)
  /-- Every number of a mean is that of the sum divided by the number of items. -/
  numbers_average : ∀ items : List (Expression K), items ≠ [] → (∀ e ∈ items, e.IsSound) →
    Scalar.isFinite (Scalar.ofNat items.length : K) = true →
    Scalar.isZero (Scalar.ofNat items.length : K) = false →
      Computed (fun place => items.foldl (fun total e => total + e.numberAt place) Scalar.zero
        / Scalar.ofNat items.length) (average items)
  /-- There is no mean of a number of items that cannot be divided by. -/
  average_refuses : ∀ items : List (Expression K),
    Scalar.isFinite (Scalar.ofNat items.length : K) = false ∨
      Scalar.isZero (Scalar.ofNat items.length : K) = true → ∃ r, average items = .error r

/-- **Arithmetic is safe over all kinds of numbers** whose operations behave as those of doubles. -/
theorem ArithmeticIsSafe.of_lawful [Scalar.LawfulOperations K] : ArithmeticIsSafe K where
  wellFormed f hf e he := Formula.isWellFormed_of_build hf _ he e rfl
  add_terms e f name a b he hf := by
    have h := singleTerm_combine Scalar.one he hf
    rw [Scalar.LawfulSums.one_mul] at h
    exact h
  sub_terms e f name a b he hf := by
    have h := singleTerm_combine (-Scalar.one) he hf
    rw [Scalar.LawfulOperations.neg_one_mul, Scalar.LawfulOperations.add_neg] at h
    exact h
  mul_zero e k hk := by
    have hempty : e.scale k = .ok empty := by
      rw [scale_eq e (Scalar.LawfulZeros.isFinite_of_isZero hk), if_pos hk]
    constructor
    · change (e.scale k).mapError _ = _
      rw [hempty]
      rfl
    · change (e.scale k).mapError _ = _
      rw [hempty]
      rfl
  div_zero e k hk := by
    change (e.divide k).mapError _ = _
    rw [divide_eq e (Scalar.LawfulZeros.isFinite_of_isZero hk), if_pos hk]
    rfl
  refuses op e k hk := Operand.combine_of_not_isFinite op e hk
  numbers_combine op x y hx hy hop hdiv := Operand.computed_combine hx hy hop hdiv
  numbers_neg e he := computed_neg he
  numbers_sum items h := computed_sum h
  numbers_average items hne h hk hz := computed_average hne h hk hz
  average_refuses items h := average_eq_error h

end LinModel
