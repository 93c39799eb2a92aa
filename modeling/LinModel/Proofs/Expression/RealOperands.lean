import LinModel.Proofs.Expression.WellFormed
import LinModel.Proofs.Number.Nearest

/-!
# Arithmetic with real numbers

A number beside an expression is a double, or an integer, a fraction or a number of fixed width that
is converted to one. Once the numbers are converted, an operation is the one on doubles
(`RawOperand.combine_of_convert`), so what is made in any number of steps is well formed
(`Expression.IsMade.isWellFormed`), and a result that would not be finite is refused.

An integer or a fraction that no finite double is near to does not get that far. It is the
conversion that fails, with an error of its own and not the one for numbers that are not finite
(`Expression.large_factor_overflows`).

Key definitions: `RawOperand.IsTooLarge`, `Expression.IsMade`, `RealArithmeticIsSafe`.
Key theorems: `RawOperand.combine_of_convert`, `RawOperand.combine_eq_conversion_iff`,
`Expression.IsMade.isWellFormed`, `arithmetic_isSafe`.
-/
namespace LinModel

open Expression

/-! ### Conversions -/

namespace RawOperand

variable {op : Operation} {x y : RawOperand} {a b : Operand Float} {e : Expression Float}
  {r : RealNumber}

theorem convert_real {k : Float} (h : r.toDouble = .ok k) :
    (real r).convert = .ok (.number k) := by
  rw [convert, h]
  rfl

theorem exists_number_of_convert (h : (real r).convert = .ok a) : ∃ k, a = .number k := by
  cases hr : r.toDouble with
  | error c =>
    rw [convert, hr] at h
    cases h
  | ok k =>
    rw [convert_real hr] at h
    exact ⟨k, (Except.ok.inj h).symm⟩

/-- Only an expression converts to one. -/
theorem eq_of_convert (h : x.convert = .ok (.expression e)) : x = .expression e := by
  cases x with
  | expression e' =>
    cases h
    rfl
  | other shown => cases h
  | real r =>
    obtain ⟨k, hk⟩ := exists_number_of_convert h
    cases hk

theorem combine_of_applies (h : applies op x y = true) :
    combine op x y = (do
      let a ← x.convert.mapError .conversion
      let b ← y.convert.mapError .conversion
      (a.combine op b).mapError .operator) := by
  rw [combine, h]
  rfl

/-- An operation that does not apply to operands does not apply to what they convert to. -/
theorem combine_of_not_applies (h : applies op x y = false) (hx : x.convert = .ok a)
    (hy : y.convert = .ok b) : a.combine op b = .error .notApplicable := by
  match x, y with
  | .expression e, .expression f =>
    cases hx
    cases hy
    cases op with
    | add | sub => cases h
    | mul | div => rfl
  | .expression _, .real _ => cases h
  | .real _, .expression f =>
    obtain ⟨k, rfl⟩ := exists_number_of_convert hx
    cases hy
    cases op with
    | add | sub | mul => cases h
    | div => rfl
  | .real _, .real _ =>
    obtain ⟨k, rfl⟩ := exists_number_of_convert hx
    obtain ⟨l, rfl⟩ := exists_number_of_convert hy
    rfl
  | .other _, _ =>
    cases hx
    rfl
  | .expression _, .other _ =>
    cases hx
    cases hy
    rfl
  | .real _, .other _ =>
    obtain ⟨k, rfl⟩ := exists_number_of_convert hx
    cases hy
    rfl

/-- **With its numbers converted, an operation is the one on doubles.** -/
theorem combine_of_convert (hx : x.convert = .ok a) (hy : y.convert = .ok b) :
    combine op x y = (a.combine op b).mapError .operator := by
  cases h : applies op x y with
  | true =>
    rw [combine_of_applies h, hx, hy]
    rfl
  | false =>
    rw [combine_of_not_applies h hx hy, combine, h]
    rfl

/-- What an operation returns, it computes of converted numbers. -/
theorem exists_convert_of_combine (h : combine op x y = .ok e) :
    ∃ a b, x.convert = .ok a ∧ y.convert = .ok b ∧ a.combine op b = .ok e := by
  cases happlies : applies op x y with
  | true =>
    rw [combine_of_applies happlies] at h
    obtain ⟨a, ha, h⟩ := bind_eq_ok.mp h
    obtain ⟨b, hb, h⟩ := bind_eq_ok.mp h
    exact ⟨a, b, mapError_eq_ok.mp ha, mapError_eq_ok.mp hb, mapError_eq_ok.mp h⟩
  | false =>
    rw [combine, happlies] at h
    cases h

/-- A number that does not convert. -/
def IsTooLarge : RawOperand → Prop
  | real r => r.IsTooLarge
  | _ => False

/-- Operands convert unless they are too large. -/
theorem convert_cases (x : RawOperand) :
    (x.IsTooLarge ∧ ∃ c, x.convert = .error c) ∨ ¬x.IsTooLarge ∧ ∃ a, x.convert = .ok a := by
  cases x with
  | expression e => exact .inr ⟨id, _, rfl⟩
  | other shown => exact .inr ⟨id, _, rfl⟩
  | real r =>
    obtain ⟨hlarge, c, hc⟩ | ⟨hnot, k, hk, -⟩ := r.toDouble_cases
    · refine .inl ⟨hlarge, c, ?_⟩
      rw [convert, hc]
      rfl
    · exact .inr ⟨hnot, _, convert_real hk⟩

/-- **An operation fails at the conversion** exactly if it applies and an operand is too large. -/
theorem combine_eq_conversion_iff :
    (∃ c, combine op x y = .error (.conversion c)) ↔
      applies op x y = true ∧ (x.IsTooLarge ∨ y.IsTooLarge) := by
  constructor
  · rintro ⟨c, hc⟩
    cases happlies : applies op x y with
    | false =>
      rw [combine, happlies] at hc
      cases hc
    | true =>
      refine ⟨rfl, ?_⟩
      obtain ⟨hlarge, -⟩ | ⟨-, a, ha⟩ := x.convert_cases
      · exact .inl hlarge
      · obtain ⟨hlarge, -⟩ | ⟨-, b, hb⟩ := y.convert_cases
        · exact .inr hlarge
        · -- with both converted there are only the errors of the operation
          rw [combine_of_convert ha hb, mapError_eq_error] at hc
          obtain ⟨_, -, hc⟩ := hc
          cases hc
  · rintro ⟨happlies, hlarge⟩
    rw [combine_of_applies happlies]
    obtain ⟨-, c, hc⟩ | ⟨hx, a, ha⟩ := x.convert_cases
    · exact ⟨c, by rw [hc]; rfl⟩
    · obtain ⟨-, c, hc⟩ | ⟨hy, -⟩ := y.convert_cases
      · exact ⟨c, by rw [ha, hc]; rfl⟩
      · exact absurd hlarge (not_or.mpr ⟨hx, hy⟩)

end RawOperand

/-! ### Arithmetic -/

namespace Expression

/-- Expressions that operators, signs, sums and means make of well-formed ones and real numbers, in
any number of steps. -/
inductive IsMade : Expression Float → Prop
  | given {e : Expression Float} (h : e.IsWellFormed) : IsMade e
  | combine {op : Operation} {x y : RawOperand} {e : Expression Float}
      (hx : ∀ a, x = .expression a → IsMade a) (hy : ∀ b, y = .expression b → IsMade b)
      (h : x.combine op y = .ok e) : IsMade e
  | neg {a e : Expression Float} (ha : IsMade a) (h : a.neg = .ok e) : IsMade e
  | sum {items : List RawOperand} {es : List (Expression Float)} {e : Expression Float}
      (hitems : ∀ a, .expression a ∈ items → IsMade a)
      (hes : List.Forall₂ (fun x e => ∃ o, x.convert = .ok o ∧ o.toExpression = .ok e) items es)
      (h : Expression.sum es = .ok e) : IsMade e
  | average {items : List RawOperand} {es : List (Expression Float)} {e : Expression Float}
      (hitems : ∀ a, .expression a ∈ items → IsMade a)
      (hes : List.Forall₂ (fun x e => ∃ o, x.convert = .ok o ∧ o.toExpression = .ok e) items es)
      (h : Expression.average es = .ok e) : IsMade e

/-- **Whatever is made is well formed.** -/
theorem IsMade.isWellFormed {e : Expression Float} (h : e.IsMade) : e.IsWellFormed := by
  induction h with
  | given h => exact h
  | @combine op x y e hx hy h ihx ihy =>
    obtain ⟨a, b, ha, hb, he⟩ := RawOperand.exists_convert_of_combine h
    refine Operand.makesWellFormed_combine op (fun a' ha' => ?_) (fun b' hb' => ?_) e he
    · subst ha'
      exact ihx a' (RawOperand.eq_of_convert ha)
    · subst hb'
      exact ihy b' (RawOperand.eq_of_convert hb)
  | @neg a e _ h ih =>
    exact ((keeps_neg ih.toIsSound).makesWellFormed (makesNonzero_mapNumbers _ a)) e h
  | @sum _ es e _ _ h =>
    exact ((keeps_sum es).makesWellFormed (makesNonzero_ofCoefficients _ _)) e h
  | @average _ es e _ _ h =>
    exact ((keeps_average es).makesWellFormed (makesNonzero_average es)) e h

end Expression

/-- What arithmetic guarantees where numbers of every kind stand beside expressions. -/
structure RealArithmeticIsSafe (op : Operation) (x y : RawOperand) : Prop extends
    ArithmeticIsSafe Float where
  /-- Whatever is made, in any number of steps, is well formed. -/
  made : ∀ e : Expression Float, e.IsMade → e.IsWellFormed
  /-- Real numbers convert unless they are too large, integers and fractions to finite doubles. -/
  converts : ∀ r : RealNumber, ¬r.IsTooLarge → ∃ k, (RawOperand.real r).convert = .ok (.number k) ∧
    (r.IsExact → Scalar.isFinite k = true)
  /-- The conversion is what fails exactly if it is asked for a number that is too large. -/
  conversion_fails_iff : (∃ c, x.combine op y = .error (.conversion c)) ↔
    RawOperand.applies op x y = true ∧ (x.IsTooLarge ∨ y.IsTooLarge)
  /-- With its numbers converted, an operation is the one on doubles. -/
  combine : ¬x.IsTooLarge → ¬y.IsTooLarge → ∃ a b, x.convert = .ok a ∧ y.convert = .ok b ∧
    x.combine op y = (a.combine op b).mapError .operator

/-- **Arithmetic keeps expressions well formed**, and no number that is not finite gets into one:
not one that is offered, nor one that is computed. Only an integer or a fraction that is too large
for a double is not refused as such, since it fails to convert. -/
theorem arithmetic_isSafe (op : Operation) (x y : RawOperand) : RealArithmeticIsSafe op x y where
  toArithmeticIsSafe := .of_lawful
  made _ h := h.isWellFormed
  converts r h := by
    obtain ⟨hlarge, -⟩ | ⟨-, k, hk, hfinite⟩ := r.toDouble_cases
    · exact absurd hlarge h
    · exact ⟨k, RawOperand.convert_real hk, hfinite⟩
  conversion_fails_iff := RawOperand.combine_eq_conversion_iff
  combine hx hy := by
    obtain ⟨hlarge, -⟩ | ⟨-, a, ha⟩ := x.convert_cases
    · exact absurd hlarge hx
    · obtain ⟨hlarge, -⟩ | ⟨-, b, hb⟩ := y.convert_cases
      · exact absurd hlarge hy
      · exact ⟨a, b, ha, hb, RawOperand.combine_of_convert ha hb⟩

/-- The operands of a mean: a term less itself, another term, and an integer. -/
def addends : List RawOperand :=
  [.expression empty, .expression (.term (.automatic 2) 3.0), .real (.integer 5)]

/-- In their mean only the other name is left. -/
theorem mean_isSafe : ∃ e : Expression Float, e.IsMade ∧ e.names = [.automatic 2] ∧
    e.IsWellFormed := by
  have hterm : ∀ (name : VariableName) (c : Float), Scalar.isFinite c = true →
      Scalar.isZero c = false → (Expression.term name c).IsMade := by
    intro name c hfinite hzero
    refine .given { toIsSound := ⟨?_, Scalar.LawfulUnits.isFinite_zero, List.nodup_singleton _⟩,
                    nonzero := ?_ }
    · simpa [Coefficients.AreFinite, coefficients] using hfinite
    · rintro _ _ ⟨⟩
      exact hzero
  have hfirst := hterm (.automatic 1) 1.5 (by decide +kernel) (by decide +kernel)
  have hsecond := hterm (.automatic 2) 3.0 (by decide +kernel) (by decide +kernel)
  have hcancels : RawOperand.combine .sub (.expression (.term (.automatic 1) 1.5))
      (.expression (.term (.automatic 1) 1.5)) = .ok empty := rfl
  have hempty : (empty : Expression Float).IsMade :=
    .combine (by rintro _ ⟨⟩; exact hfirst) (by rintro _ ⟨⟩; exact hfirst) hcancels
  have hstands : List.Forall₂ (fun x e => ∃ o, x.convert = .ok o ∧ o.toExpression = .ok e) addends
      [empty, .term (.automatic 2) 3.0, .linear [] 5.0] :=
    .cons ⟨_, rfl, rfl⟩ (.cons ⟨_, rfl, rfl⟩ (.cons ⟨.number 5.0, rfl, rfl⟩ .nil))
  have hmean : (Expression.linear [(.automatic 2, 3.0 / 3.0)] (5.0 / 3.0)).IsMade := by
    refine .average (fun a ha => ?_) hstands rfl
    simp only [addends, List.mem_cons, RawOperand.expression.injEq, List.not_mem_nil, or_false,
      reduceCtorEq] at ha
    obtain rfl | rfl := ha
    · exact hempty
    · exact hsecond
  have hsafe := arithmetic_isSafe .sub (.expression (.term (.automatic 1) 1.5))
    (.expression (.term (.automatic 1) 1.5))
  exact ⟨_, hmean, rfl, hsafe.made _ hmean⟩

/-- No double is near to the factor, and it is not refused as one that is not finite. -/
theorem large_factor_overflows : Scalar.isFinite (Number.nearestInt (10 ^ 400)) = false ∧
    RawOperand.combine .mul (.expression (.term (.automatic 1) 1.0)) (.real (.integer (10 ^ 400)))
      = .error (.conversion .integerTooLarge) := by
  have hlarge : Number.largest ≤ |((10 ^ 400 : ℤ) : ℚ)| := by
    calc Number.largest ≤ 2 ^ 1024 := sub_le_self _ (by positivity)
      _ = (2 ^ 256) ^ 4 := by rw [← pow_mul]
      _ ≤ (10 ^ 100) ^ 4 := by
        gcongr
        norm_num
      _ = |((10 ^ 400 : ℤ) : ℚ)| := by
        rw [← pow_mul, Int.cast_pow, Int.cast_ofNat, abs_of_pos (by positivity)]
  have hnot := mt (Number.isFinite_nearestInt (10 ^ 400)).mp (not_lt.mpr hlarge)
  have hconvert := RealNumber.toDouble_integer (10 ^ 400)
  rw [if_neg hnot] at hconvert
  refine ⟨Bool.eq_false_iff.mpr hnot, ?_⟩
  rw [RawOperand.combine_of_applies rfl, RawOperand.convert, RawOperand.convert, hconvert]
  rfl

end LinModel
