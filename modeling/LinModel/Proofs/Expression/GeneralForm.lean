import LinModel.Proofs.Compiling.Normal
import LinModel.Proofs.Doubles

/-!
# Single terms and their general form

Variables and single terms have operations of their own: terms of one name stay a single term, and
a coefficient that becomes zero leaves the empty expression. The general linear form with the same
coefficients merges its entries one by one, and keeps those that become zero. Up to the signs of
zeros and entries that are zero the two give the same results, and they refuse the same operands
with the same class of error (`Operand.outcome_combine_general`).

Every operation is compared with the one on coefficients and constants that all expressions share:
merging (`Expression.outcome_combine`), or applying a function to every number
(`Expression.outcome_mapNumbers`). Of the arithmetic they need `Scalar.LawfulZeros` only, which
doubles satisfy.

Key definitions: `Expression.essential`, `ErrorClass`, `Expression.outcome`, `Operand.Rewritten`.
Key theorems: `Expression.outcome_ofCoefficients_congr`, `Expression.outcome_combine`,
`Expression.outcome_mapNumbers`, `Operand.outcome_combine_general`.
-/
namespace LinModel

variable {K : Type} [Scalar K]

/-! ### What is compared -/

/-- A number, and for a zero the one without a sign. -/
def Scalar.unsignZero (a : K) : K := if isZero a then zero else a

/-- The linear form without terms that are zero and without the sign of a zero constant. -/
def Expression.essential (e : Expression K) : Expression K :=
  .linear e.coefficients.nonzero (Scalar.unsignZero e.constant)

/-- The classes of errors of an operator. -/
inductive ErrorClass
  /-- A number that does not fit. -/
  | value
  | zeroDivision
  /-- Operands that do not go together. -/
  | type
deriving DecidableEq

/-- The class of an error. -/
def ExpressionError.errorClass : ExpressionError K → ErrorClass
  | .notFinite _ => .value
  | .divisionByZero _ => .zeroDivision
  | .nothingToAverage => .value

/-- The class of an error. -/
def OperatorError.errorClass : OperatorError K → ErrorClass
  | .notApplicable => .type
  | .expression e => e.errorClass

/-- The essential expression that is returned, or the class of the error. -/
def outcomeBy {ε : Type} (classify : ε → ErrorClass) (result : Except ε (Expression K)) :
    Except ErrorClass (Expression K) :=
  (result.map Expression.essential).mapError classify

/-- What comes of an operation on expressions. -/
def Expression.outcome : Except (ExpressionError K) (Expression K) →
    Except ErrorClass (Expression K) :=
  outcomeBy ExpressionError.errorClass

/-- What comes of an operator. -/
def Operand.outcome : Except (OperatorError K) (Expression K) →
    Except ErrorClass (Expression K) :=
  outcomeBy OperatorError.errorClass

/-- An operand as it is, or an expression as the linear form of its coefficients and constant. -/
inductive Operand.Rewritten : Operand K → Operand K → Prop
  | same (x : Operand K) : Rewritten x x
  | general {e e' : Expression K}
    (h : Expression.ofCoefficients e.coefficients e.constant = .ok e') :
    Rewritten (.expression e) (.expression e')

/-! ### Zeros -/

namespace Scalar

variable {a b z : K}

theorem unsignZero_of_isZero (h : isZero a = true) : unsignZero a = zero := if_pos h

theorem unsignZero_of_not_isZero (h : isZero a = false) : unsignZero a = a :=
  if_neg (by simp [h])

variable [LawfulZeros K]

/-- Zeros are told from other numbers whatever their sign. -/
theorem isZero_unsignZero : isZero (unsignZero a) = isZero a := by
  cases h : isZero a with
  | true => rw [unsignZero_of_isZero h, LawfulZeros.isZero_zero]
  | false => rw [unsignZero_of_not_isZero h, h]

theorem isZero_congr (h : unsignZero a = unsignZero b) : isZero a = isZero b := by
  rw [← isZero_unsignZero, h, isZero_unsignZero]

theorem isFinite_unsignZero : isFinite (unsignZero a) = isFinite a := by
  cases h : isZero a with
  | true =>
    rw [unsignZero_of_isZero h, LawfulUnits.isFinite_zero, LawfulZeros.isFinite_of_isZero h]
  | false => rw [unsignZero_of_not_isZero h]

/-- A zero adds nothing. -/
theorem unsignZero_zero_add (h : isZero z = true) : unsignZero (z + a) = unsignZero a := by
  obtain hsum | ⟨ha, hsum⟩ := LawfulZeros.zero_add a h
  · rw [hsum]
  · rw [unsignZero_of_isZero hsum, unsignZero_of_isZero ha]

theorem unsignZero_add_zero {K : Type} [Scalar K] [LawfulSums K] {a z : K} (h : isZero z = true) :
    unsignZero (a + z) = unsignZero a := by
  obtain hsum | ⟨ha, hsum⟩ := LawfulSums.add_zero a h
  · rw [hsum]
  · rw [unsignZero_of_isZero hsum, unsignZero_of_isZero ha]

/-- The sign of a zero is lost in a sum. -/
theorem unsignZero_add_congr (h : unsignZero a = unsignZero b) (c : K) :
    unsignZero (a + c) = unsignZero (b + c) := by
  have hzero := isZero_congr h
  cases ha : isZero a with
  | true => rw [unsignZero_zero_add ha, unsignZero_zero_add (hzero ▸ ha)]
  | false =>
    rw [unsignZero_of_not_isZero ha, unsignZero_of_not_isZero (hzero ▸ ha)] at h
    rw [h]

/-- The sign of a zero is lost in a quotient. -/
theorem unsignZero_div_congr (h : unsignZero a = unsignZero b) {k : K} (hk : isFinite k = true)
    (hne : isZero k = false) : unsignZero (a / k) = unsignZero (b / k) := by
  have hzero := isZero_congr h
  cases ha : isZero a with
  | true =>
    rw [unsignZero_of_isZero (LawfulZeros.isZero_div ha hk hne),
      unsignZero_of_isZero (LawfulZeros.isZero_div (hzero ▸ ha) hk hne)]
  | false =>
    rw [unsignZero_of_not_isZero ha, unsignZero_of_not_isZero (hzero ▸ ha)] at h
    rw [h]

end Scalar

namespace Coefficients

variable {cs : Coefficients K} {name : VariableName} {a b : K}

theorem nonzero_cons : nonzero ((name, a) :: cs)
    = if Scalar.isZero a then nonzero cs else (name, a) :: nonzero cs := by
  cases h : Scalar.isZero a with
  | true => exact List.filter_cons_of_neg (by simpa [Scalar.isZero] using h)
  | false => exact List.filter_cons_of_pos (by simpa [Scalar.isZero] using h)

variable [Scalar.LawfulZeros K]

/-- The sign of a zero coefficient does not show. -/
theorem nonzero_cons_congr (h : Scalar.unsignZero a = Scalar.unsignZero b) :
    nonzero ((name, a) :: cs) = nonzero ((name, b) :: cs) := by
  have hzero := Scalar.isZero_congr h
  rw [nonzero_cons, nonzero_cons, hzero]
  cases hb : Scalar.isZero b with
  | true => rfl
  | false =>
    rw [Scalar.unsignZero_of_not_isZero (hzero.trans hb), Scalar.unsignZero_of_not_isZero hb] at h
    rw [h]

/-- Coefficients that are zero are finite. -/
theorem areFinite_nonzero : cs.nonzero.AreFinite ↔ cs.AreFinite := by
  refine ⟨fun h entry hentry => ?_, fun h entry hentry => h entry (List.mem_of_mem_filter hentry)⟩
  cases hzero : Scalar.isZero entry.2 with
  | true => exact Scalar.LawfulZeros.isFinite_of_isZero hzero
  | false => exact h entry (List.mem_filter.mpr ⟨hentry, by simpa [Scalar.isZero] using hzero⟩)

end Coefficients

/-! ### Forms that differ in zeros -/

namespace Expression

@[simp] theorem outcome_ok (e : Expression K) : outcome (.ok e) = .ok e.essential := rfl

@[simp] theorem outcome_error (x : ExpressionError K) :
    outcome (.error x) = .error x.errorClass := rfl

theorem outcome_mapError (r : Except (ExpressionError K) (Expression K)) :
    Operand.outcome (r.mapError .expression) = outcome r := by
  cases r with
  | ok e => rfl
  | error x => rfl

/-- A linear form is refused for a number that does not fit. -/
theorem outcome_ofCoefficients_of_not {cs : Coefficients K} {k : K}
    (h : ¬(cs.AreFinite ∧ Scalar.isFinite k = true)) :
    outcome (ofCoefficients cs k) = .error .value := by
  obtain ⟨v, hv⟩ := ofCoefficients_of_not h
  rw [hv]
  rfl

variable [Scalar.LawfulZeros K] {cs cs' : Coefficients K} {k k' : K}

/-- **Zeros do not show.** Linear forms that differ in zero terms and the signs of zeros only are
made of the same numbers and refused together. -/
theorem outcome_ofCoefficients_congr (hcs : cs.nonzero = cs'.nonzero)
    (hk : Scalar.unsignZero k = Scalar.unsignZero k') :
    outcome (ofCoefficients cs k) = outcome (ofCoefficients cs' k') := by
  have hfinite : cs.AreFinite ∧ Scalar.isFinite k = true
      ↔ cs'.AreFinite ∧ Scalar.isFinite k' = true := by
    rw [← Coefficients.areFinite_nonzero, ← Scalar.isFinite_unsignZero, hcs, hk,
      Coefficients.areFinite_nonzero, Scalar.isFinite_unsignZero]
  by_cases h : cs.AreFinite ∧ Scalar.isFinite k = true
  · rw [ofCoefficients_eq_ok.mpr ⟨rfl, h⟩, ofCoefficients_eq_ok.mpr ⟨rfl, hfinite.mp h⟩]
    simp only [outcome_ok, essential, coefficients, constant, hcs, hk]
  · rw [outcome_ofCoefficients_of_not h, outcome_ofCoefficients_of_not (mt hfinite.mpr h)]

/-- A single term is a linear form of one term. -/
theorem outcome_ofTermOrEmpty (name : VariableName) (c : K) (hk : Scalar.isZero k = true) :
    outcome (ofTermOrEmpty name c) = outcome (ofCoefficients [(name, c)] k) := by
  have hk' : Scalar.unsignZero k = Scalar.unsignZero Scalar.zero := by
    rw [Scalar.unsignZero_of_isZero hk, Scalar.unsignZero_of_isZero Scalar.LawfulZeros.isZero_zero]
  rw [outcome_ofCoefficients_congr rfl hk']
  have hzero := Scalar.LawfulUnits.isFinite_zero (K := K)
  cases hc : Scalar.isZero c with
  | true =>
    have hempty : ofTermOrEmpty name c = .ok empty := if_pos hc
    have hform : ofCoefficients [] (Scalar.zero : K) = .ok empty :=
      ofCoefficients_eq_ok.mpr ⟨rfl, List.forall_mem_nil _, hzero⟩
    rw [hempty, ← hform]
    refine outcome_ofCoefficients_congr ?_ rfl
    rw [Coefficients.nonzero_cons, if_pos hc]
  | false =>
    have hterm : ofTermOrEmpty name c = ofTerm name c :=
      if_neg (by simpa [Scalar.isZero] using hc)
    rw [hterm, ofTerm, finite]
    by_cases hf : Scalar.isFinite c = true
    · have hform : ofCoefficients [(name, c)] (Scalar.zero : K)
          = .ok (.linear [(name, c)] Scalar.zero) :=
        ofCoefficients_eq_ok.mpr ⟨rfl, by simpa [Coefficients.AreFinite] using hf, hzero⟩
      rw [hform, if_pos hf]
      rfl
    · rw [outcome_ofCoefficients_of_not (by simp [Coefficients.AreFinite, hf]), if_neg hf]
      rfl

/-! ### Operations -/

/-- **Single terms are combined as all expressions are.** -/
theorem outcome_combine {sign : K} (hsign : Scalar.isFinite sign = true) (e f : Expression K) :
    outcome (combine sign e f)
      = outcome (ofCoefficients (mergeInto (sign * ·) e.coefficients f.coefficients)
          (e.constant + sign * f.constant)) := by
  unfold combine
  split
  case h_2 => rfl
  case h_1 m a n b he hf =>
    obtain ⟨hecs, hek⟩ := of_term? he
    obtain ⟨hfcs, hfk⟩ := of_term? hf
    rw [hecs, hek, hfcs, hfk]
    have hzero : Scalar.isZero (Scalar.zero : K) = true := Scalar.LawfulZeros.isZero_zero
    have hproduct : Scalar.isZero (sign * Scalar.zero) = true :=
      Scalar.LawfulZeros.mul_isZero hsign hzero
    have hconstant : Scalar.unsignZero (Scalar.zero + sign * Scalar.zero)
        = Scalar.unsignZero (Scalar.zero : K) := by
      rw [Scalar.unsignZero_zero_add hzero, Scalar.unsignZero_of_isZero hproduct,
        Scalar.unsignZero_of_isZero hzero]
    by_cases hmn : m = n
    · subst hmn
      have hmerge : mergeInto (sign * ·) [(m, a)] [(m, b)] = [(m, a + sign * b)] := by
        simp [mergeInto, Entries.put, Entries.find?]
      rw [if_pos rfl, hmerge, outcome_ofTermOrEmpty m _ hzero]
      exact outcome_ofCoefficients_congr rfl hconstant.symm
    · have hmerge : mergeInto (sign * ·) [(m, a)] [(n, b)]
          = [(m, a), (n, Scalar.zero + sign * b)] := by
        simp [mergeInto, Entries.put, Entries.find?, hmn]
      have hsum : Coefficients.nonzero [(n, sign * b)]
          = Coefficients.nonzero [(n, Scalar.zero + sign * b)] :=
        Coefficients.nonzero_cons_congr (Scalar.unsignZero_zero_add hzero).symm
      have hterms : Coefficients.nonzero [(m, a), (n, sign * b)]
          = Coefficients.nonzero [(m, a), (n, Scalar.zero + sign * b)] := by
        simp only [Coefficients.nonzero, List.filter_cons] at hsum ⊢
        rw [hsum]
      rw [if_neg hmn, hmerge]
      exact outcome_ofCoefficients_congr hterms hconstant.symm

/-- **A function that keeps zero is applied to a single term as to all expressions.** -/
theorem outcome_mapNumbers {f : K → K} (hf : Scalar.isZero (f Scalar.zero) = true) :
    ∀ e : Expression K, outcome (e.mapNumbers f)
      = outcome (ofCoefficients (e.coefficients.mapValues f) (f e.constant))
  | .variable v => outcome_ofTermOrEmpty v.name _ hf
  | .term name _ => outcome_ofTermOrEmpty name _ hf
  | .linear _ _ => rfl

/-- What comes of a shift depends on what came before it. -/
theorem outcome_bind_shift {r r' : Except (ExpressionError K) (Expression K)}
    (h : outcome r = outcome r') (k : K) :
    outcome (r >>= (shift · k)) = outcome (r' >>= (shift · k)) := by
  cases r with
  | error x =>
    cases r' with
    | error y => exact h
    | ok e => cases h
  | ok e =>
    cases r' with
    | error y => cases h
    | ok e' =>
      have hessential : e.essential = e'.essential := Except.ok.inj h
      injection hessential with hcs hk
      exact outcome_ofCoefficients_congr hcs (Scalar.unsignZero_add_congr hk k)

/-- Expressions of the same numbers: one is the other or its general form. -/
structure SameNumbers (e e' : Expression K) : Prop where
  coefficients : e.coefficients = e'.coefficients
  constant : e.constant = e'.constant

namespace SameNumbers

variable {e e' f f' : Expression K}

omit [Scalar.LawfulZeros K] in
theorem refl (e : Expression K) : e.SameNumbers e := ⟨rfl, rfl⟩

theorem combine {sign : K} (hsign : Scalar.isFinite sign = true) (he : e.SameNumbers e')
    (hf : f.SameNumbers f') :
    outcome (Expression.combine sign e f) = outcome (Expression.combine sign e' f') := by
  rw [outcome_combine hsign, outcome_combine hsign, he.coefficients, he.constant, hf.coefficients,
    hf.constant]

theorem mapNumbers {g : K → K} (hg : Scalar.isZero (g Scalar.zero) = true)
    (he : e.SameNumbers e') : outcome (e.mapNumbers g) = outcome (e'.mapNumbers g) := by
  rw [outcome_mapNumbers hg, outcome_mapNumbers hg, he.coefficients, he.constant]

theorem add (he : e.SameNumbers e') (hf : f.SameNumbers f') :
    outcome (e.add f) = outcome (e'.add f') :=
  he.combine Scalar.LawfulUnits.isFinite_one hf

theorem sub (he : e.SameNumbers e') (hf : f.SameNumbers f') :
    outcome (e.sub f) = outcome (e'.sub f') :=
  he.combine Scalar.LawfulZeros.isFinite_neg_one hf

theorem neg (he : e.SameNumbers e') : outcome e.neg = outcome e'.neg :=
  he.mapNumbers (Scalar.LawfulZeros.isZero_neg Scalar.LawfulZeros.isZero_zero)

omit [Scalar.LawfulZeros K] in
theorem shift (he : e.SameNumbers e') (k : K) : e.shift k = e'.shift k := by
  rw [Expression.shift, he.coefficients, he.constant, Expression.shift]

omit [Scalar.LawfulZeros K] in
theorem addScalar (he : e.SameNumbers e') (k : K) : e.addScalar k = e'.addScalar k := by
  simp only [Expression.addScalar, he.shift]

omit [Scalar.LawfulZeros K] in
theorem subScalar (he : e.SameNumbers e') (k : K) : e.subScalar k = e'.subScalar k := by
  simp only [Expression.subScalar, he.shift]

theorem scalarSub (he : e.SameNumbers e') (k : K) :
    outcome (Expression.scalarSub k e) = outcome (Expression.scalarSub k e') := by
  cases hk : finite k with
  | error x => simp only [Expression.scalarSub, hk, error_bind]
  | ok k' =>
    simp only [Expression.scalarSub, hk, ok_bind]
    exact outcome_bind_shift he.neg k'

theorem scale (he : e.SameNumbers e') (k : K) : outcome (e.scale k) = outcome (e'.scale k) := by
  cases hk : finite k with
  | error x => simp only [Expression.scale, hk, error_bind]
  | ok k' =>
    obtain ⟨rfl, hfinite⟩ := finite_eq_ok.mp hk
    simp only [Expression.scale, hk, ok_bind]
    split
    · rfl
    · exact he.mapNumbers (Scalar.LawfulZeros.isZero_mul Scalar.LawfulZeros.isZero_zero hfinite)

theorem divide (he : e.SameNumbers e') (k : K) :
    outcome (e.divide k) = outcome (e'.divide k) := by
  cases hk : finite k with
  | error x => simp only [Expression.divide, hk, error_bind]
  | ok k' =>
    obtain ⟨rfl, hfinite⟩ := finite_eq_ok.mp hk
    simp only [Expression.divide, hk, ok_bind]
    split
    · rfl
    case isFalse hzero =>
      have hquotient : Scalar.isZero (Scalar.zero / k') = true :=
        Scalar.LawfulZeros.isZero_div Scalar.LawfulZeros.isZero_zero hfinite
          (by simpa [Scalar.isZero] using hzero)
      exact he.mapNumbers hquotient

end SameNumbers

end Expression

/-! ### Operators -/

namespace Operand

variable [Scalar.LawfulZeros K] {x x' y y' : Operand K}

omit [Scalar.LawfulZeros K] in
/-- A rewritten operand has the numbers of an expression, or is what it was. -/
theorem Rewritten.cases (h : x.Rewritten x') :
    (∃ e e', x = .expression e ∧ x' = .expression e' ∧ e.SameNumbers e') ∨
      (∀ e, x ≠ .expression e) ∧ x' = x := by
  cases h with
  | general h =>
    obtain ⟨rfl, -⟩ := Expression.ofCoefficients_eq_ok.mp h
    exact .inl ⟨_, _, rfl, rfl, rfl, rfl⟩
  | same x =>
    cases x with
    | expression e => exact .inl ⟨e, e, rfl, rfl, .refl e⟩
    | number k => exact .inr ⟨nofun, rfl⟩
    | other shown => exact .inr ⟨nofun, rfl⟩

/-- An operation between an expression and what is none. -/
theorem outcome_combine_left (op : Operation) {e e' : Expression K} (he : e.SameNumbers e')
    (hy : ∀ f, y ≠ .expression f) :
    outcome (combine op (.expression e) y) = outcome (combine op (.expression e') y) := by
  cases y with
  | expression f => exact absurd rfl (hy f)
  | other shown => rfl
  | number k =>
    simp only [combine, Expression.outcome_mapError]
    cases op with
    | add => exact congrArg Expression.outcome (he.addScalar k)
    | sub => exact congrArg Expression.outcome (he.subScalar k)
    | mul => exact he.scale k
    | div => exact he.divide k

/-- An operation between what is no expression and an expression. -/
theorem outcome_combine_right (op : Operation) {f f' : Expression K} (hf : f.SameNumbers f')
    (hx : ∀ e, x ≠ .expression e) :
    outcome (combine op x (.expression f)) = outcome (combine op x (.expression f')) := by
  cases x with
  | expression e => exact absurd rfl (hx e)
  | other shown => rfl
  | number k =>
    cases op with
    | div => rfl
    | add =>
      simp only [combine, Operation.afterNumber?, Expression.outcome_mapError, hf.addScalar]
    | sub =>
      simp only [combine, Operation.afterNumber?, Expression.outcome_mapError]
      exact hf.scalarSub k
    | mul =>
      simp only [combine, Operation.afterNumber?, Expression.outcome_mapError]
      exact hf.scale k

/-- An operation between two expressions. -/
theorem outcome_combine_both (op : Operation) {e e' f f' : Expression K} (he : e.SameNumbers e')
    (hf : f.SameNumbers f') :
    outcome (combine op (.expression e) (.expression f))
      = outcome (combine op (.expression e') (.expression f')) := by
  cases op with
  | mul => rfl
  | div => rfl
  | add =>
    simp only [combine, Operation.onExpression, Expression.outcome_mapError]
    exact he.add hf
  | sub =>
    simp only [combine, Operation.onExpression, Expression.outcome_mapError]
    exact he.sub hf

/-- **The operations of single terms agree with those of their general form.** Every sound
expression has a general form; and whichever operands of an operator, or of a sign, are replaced by
their general form, the result has the same constant and the same nonzero coefficients up to the
signs of zeros, or is refused with the same class of error. -/
theorem outcome_combine_general :
    (∀ e : Expression K, e.IsSound →
      ∃ e', Expression.ofCoefficients e.coefficients e.constant = .ok e') ∧
    (∀ e e' : Expression K, Expression.ofCoefficients e.coefficients e.constant = .ok e' →
      Expression.outcome e.neg = Expression.outcome e'.neg) ∧
    ∀ (op : Operation) (x x' y y' : Operand K), x.Rewritten x' → y.Rewritten y' →
      outcome (combine op x y) = outcome (combine op x' y') := by
  refine ⟨fun e he => ?_, fun e e' h => ?_, fun op x x' y y' hx hy => ?_⟩
  · exact ⟨_, Expression.ofCoefficients_eq_ok.mpr ⟨rfl, he.finite, he.finite_constant⟩⟩
  · obtain ⟨rfl, -⟩ := Expression.ofCoefficients_eq_ok.mp h
    exact Expression.SameNumbers.neg ⟨rfl, rfl⟩
  · obtain ⟨e, e', rfl, rfl, he⟩ | ⟨hxe, rfl⟩ := hx.cases
    · obtain ⟨f, f', rfl, rfl, hf⟩ | ⟨hyf, rfl⟩ := hy.cases
      · exact outcome_combine_both op he hf
      · exact outcome_combine_left op he hyf
    · obtain ⟨f, f', rfl, rfl, hf⟩ | ⟨-, rfl⟩ := hy.cases
      · exact outcome_combine_right op hf hxe
      · rfl

/-- A single term over doubles. -/
def single (c : Float) : Expression Float := .term (.automatic 1) c

/-- The general form of a single term over doubles. -/
def general (c : Float) : Expression Float := .linear [(.automatic 1, c)] 0.0

theorem isSound_single {c : Float} (h : Scalar.isFinite c = true) : (single c).IsSound where
  finite := by simpa [Coefficients.AreFinite, single, Expression.coefficients] using h
  finite_constant := Scalar.LawfulUnits.isFinite_zero
  nodup := List.nodup_singleton _

theorem ofCoefficients_single {c : Float} (h : Scalar.isFinite c = true) :
    Expression.ofCoefficients (single c).coefficients (single c).constant = .ok (general c) :=
  Expression.ofCoefficients_eq_ok.mpr
    ⟨rfl, (isSound_single h).finite, (isSound_single h).finite_constant⟩

/-- Half of the least double is zero: a single term is gone, its general form keeps an entry. Twice
a large double is infinite, and refused. -/
theorem least_and_large_agree :
    (∃ e, Expression.ofCoefficients (single 5e-324).coefficients (single 5e-324).constant = .ok e) ∧
      Expression.outcome (single 5e-324).neg = Expression.outcome (general 5e-324).neg ∧
      (combine .div (.expression (single 5e-324)) (.number 2.0)).toOption.map
        (·.coefficients.length) = some 0 ∧
      (combine .div (.expression (general 5e-324)) (.number 2.0)).toOption.map
        (·.coefficients.length) = some 1 ∧
      outcome (combine .div (.expression (single 5e-324)) (.number 2.0))
        = outcome (combine .div (.expression (general 5e-324)) (.number 2.0)) ∧
      (combine .add (.expression (single 1e308)) (.expression (single 1e308))).isOk = false ∧
      outcome (combine .add (.expression (single 1e308)) (.expression (single 1e308)))
        = outcome (combine .add (.expression (general 1e308)) (.expression (single 1e308))) := by
  have hleast : Scalar.isFinite (5e-324 : Float) = true := by decide +kernel
  have hlarge : Scalar.isFinite (1e308 : Float) = true := by decide +kernel
  obtain ⟨hform, hneg, hcombine⟩ := outcome_combine_general (K := Float)
  refine ⟨hform _ (isSound_single hleast), hneg _ _ (ofCoefficients_single hleast),
    by decide +kernel, by decide +kernel, ?_, by decide +kernel, ?_⟩
  · exact hcombine _ _ _ _ _ (.general (ofCoefficients_single hleast)) (.same _)
  · exact hcombine _ _ _ _ _ (.general (ofCoefficients_single hlarge)) (.same _)

end Operand
end LinModel
