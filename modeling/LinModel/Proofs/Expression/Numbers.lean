import LinModel.Proofs.Expression.Sums

/-!
# The numbers of results

An expression has a number at every place: the coefficient of each name, zero for names that it
does not have, and the constant. An operation computes the numbers of its result from those of its
operands, place by place. What it returns has just these numbers, up to the signs of zeros; it
returns something if all of them are finite; and if one is not, the operation is refused for a
number that does not fit (`Expression.Computed`).

Single terms are compared with their general form first (`Expression.outcome_combine`,
`Expression.outcome_mapNumbers`), so that merging, a function of every number, and adding to the
constant are the only cases.

Key definitions: `Expression.numberAt`, `Operand.numberAt`, `Operation.computed`,
`Expression.Computed`.
Key theorems: `Expression.computed_ofCoefficients`, `Expression.Computed.of_outcome`,
`Expression.computed_combine`, `Expression.computed_mapNumbers`, `Expression.computed_sum`,
`Operand.computed_combine`.
-/
namespace LinModel

variable {K : Type} [Scalar K]

/-! ### Numbers by place -/

/-- The coefficient of a name, zero for a name without one. -/
def Coefficients.coefficientAt (cs : Coefficients K) (name : VariableName) : K :=
  (cs.find? name).getD Scalar.zero

namespace Expression

/-- The coefficient of a name, or the constant. -/
def numberAt (e : Expression K) : Option VariableName → K
  | some name => e.coefficients.coefficientAt name
  | none => e.constant

/-- A result has the given numbers, up to the signs of zeros; something is returned if all of them
are finite, and refused for a number that does not fit if one is not. -/
structure Computed (numbers : Option VariableName → K)
    (result : Except (ExpressionError K) (Expression K)) : Prop where
  numbers_of_ok : ∀ e, result = .ok e →
    ∀ place, Scalar.unsignZero (e.numberAt place) = Scalar.unsignZero (numbers place)
  returns : (∀ place, Scalar.isFinite (numbers place) = true) → ∃ e, result = .ok e
  refused : ∀ place, Scalar.isFinite (numbers place) = false →
    ∃ r, result = .error r ∧ r.errorClass = .value

end Expression

namespace Operand

/-- The coefficient of a name, or the constant; a number is a constant alone. -/
def numberAt : Operand K → Option VariableName → K
  | .expression e, place => e.numberAt place
  | .number k, none => k
  | _, _ => Scalar.zero

/-- Whether an operand is a number. -/
def isNumber : Operand K → Bool
  | .number _ => true
  | _ => false

end Operand

/-- The number at a place that an operation computes from those of its operands; one operand of a
product and the divisor of a quotient are numbers. -/
def Operation.computed (x y : Operand K) (place : Option VariableName) : Operation → K
  | .add => x.numberAt place + y.numberAt place
  | .sub => x.numberAt place - y.numberAt place
  | .mul =>
    if x.isNumber then x.numberAt none * y.numberAt place
    else x.numberAt place * y.numberAt none
  | .div => x.numberAt place / y.numberAt none

/-! ### Coefficients -/

namespace Coefficients

variable {cs : Coefficients K} {name : VariableName}

theorem coefficientAt_cons (m : VariableName) (c : K) (cs : Coefficients K) :
    coefficientAt ((m, c) :: cs) name = if m = name then c else cs.coefficientAt name := by
  simp only [coefficientAt, Entries.find?_cons, beq_iff_eq]
  split_ifs <;> rfl

theorem coefficientAt_of_not_mem (h : name ∉ cs.keys) : cs.coefficientAt name = Scalar.zero := by
  rw [coefficientAt, Entries.find?_eq_none_of_not_mem h]
  rfl

theorem coefficientAt_of_mem {c : K} (hn : cs.keys.Nodup) (h : (name, c) ∈ cs) :
    cs.coefficientAt name = c := by
  rw [coefficientAt, Entries.find?_eq_some_of_mem hn h]
  rfl

theorem coefficientAt_increase (m : VariableName) (value : K) :
    (cs.increase m value).coefficientAt name
      = if m = name then cs.coefficientAt name + value else cs.coefficientAt name := by
  split_ifs with h
  · subst h
    rw [coefficientAt, increase, Entries.find?_put_self]
    rfl
  · rw [coefficientAt, increase, Entries.find?_put_of_ne h]
    rfl

theorem areFinite_iff_coefficientAt [Scalar.LawfulUnits K] (hn : cs.keys.Nodup) :
    cs.AreFinite ↔ ∀ name, Scalar.isFinite (cs.coefficientAt name) = true := by
  refine ⟨fun h name => ?_, fun h entry hentry => ?_⟩
  · cases hfind : cs.find? name with
    | none =>
      rw [coefficientAt, hfind]
      exact Scalar.LawfulUnits.isFinite_zero
    | some c =>
      obtain ⟨m, hm⟩ := Entries.exists_mem_of_find? hfind
      rw [coefficientAt, hfind]
      exact h _ hm
  · rw [← coefficientAt_of_mem hn hentry]
    exact h entry.1

section Zeros

variable [Scalar.LawfulZeros K]

/-- Terms that are zero count as no terms. -/
theorem unsignZero_coefficientAt_nonzero : ∀ {cs : Coefficients K}, cs.keys.Nodup →
    Scalar.unsignZero (cs.nonzero.coefficientAt name) = Scalar.unsignZero (cs.coefficientAt name)
  | [], _ => rfl
  | (m, c) :: cs, hn => by
    obtain ⟨hm, hn⟩ := List.nodup_cons.mp hn
    have ih : Scalar.unsignZero (coefficientAt (nonzero cs) name)
        = Scalar.unsignZero (coefficientAt cs name) := unsignZero_coefficientAt_nonzero hn
    rw [nonzero_cons, coefficientAt_cons]
    cases hc : Scalar.isZero c with
    | false =>
      rw [if_neg Bool.false_ne_true, coefficientAt_cons]
      split_ifs
      · rfl
      · exact ih
    | true =>
      rw [if_pos rfl, ih]
      split_ifs with hname
      · subst hname
        rw [coefficientAt_of_not_mem hm, Scalar.unsignZero_of_isZero hc,
          Scalar.unsignZero_of_isZero Scalar.LawfulZeros.isZero_zero]
      · rfl

/-- A function that keeps zero is applied to the coefficient of every name. -/
theorem unsignZero_coefficientAt_mapValues {f : K → K}
    (hf : Scalar.isZero (f Scalar.zero) = true) : ∀ cs : Coefficients K,
    Scalar.unsignZero (coefficientAt (cs.mapValues f) name)
      = Scalar.unsignZero (f (cs.coefficientAt name))
  | [] => by
    change Scalar.unsignZero Scalar.zero = Scalar.unsignZero (f Scalar.zero)
    rw [Scalar.unsignZero_of_isZero hf, Scalar.unsignZero_of_isZero Scalar.LawfulZeros.isZero_zero]
  | (m, c) :: cs => by
    have hcons : Entries.mapValues f ((m, c) :: cs) = (m, f c) :: Entries.mapValues f cs := rfl
    rw [hcons, coefficientAt_cons, coefficientAt_cons]
    split_ifs
    · rfl
    · exact unsignZero_coefficientAt_mapValues hf cs

end Zeros

theorem unsignZero_coefficientAt_mergeInto [Scalar.LawfulSums K] {f : K → K}
    (hf : Scalar.isZero (f Scalar.zero) = true) : ∀ {added : Coefficients K}
    (start : Coefficients K), added.keys.Nodup →
    Scalar.unsignZero (coefficientAt (Expression.mergeInto f start added) name)
      = Scalar.unsignZero (start.coefficientAt name + f (added.coefficientAt name))
  | [], start, _ => (Scalar.unsignZero_add_zero hf).symm
  | (m, c) :: added, start, hn => by
    obtain ⟨hm, hn⟩ := List.nodup_cons.mp hn
    rw [mergeInto_cons, unsignZero_coefficientAt_mergeInto hf _ hn, coefficientAt_increase,
      coefficientAt_cons]
    split_ifs with hname
    · subst hname
      rw [coefficientAt_of_not_mem hm, Scalar.unsignZero_add_zero hf]
    · rfl

end Coefficients

/-! ### Forms -/

namespace Expression

variable {numbers : Option VariableName → K} {e : Expression K} {cs : Coefficients K} {k : K}

theorem isFinite_iff_numberAt [Scalar.LawfulUnits K] (hn : e.names.Nodup) :
    e.coefficients.AreFinite ∧ Scalar.isFinite e.constant = true ↔
      ∀ place, Scalar.isFinite (e.numberAt place) = true := by
  rw [Coefficients.areFinite_iff_coefficientAt hn]
  refine ⟨fun h place => ?_, fun h => ⟨fun name => h (some name), h none⟩⟩
  cases place with
  | none => exact h.2
  | some name => exact h.1 name

theorem IsSound.isFinite_numberAt [Scalar.LawfulUnits K] (h : e.IsSound)
    (place : Option VariableName) : Scalar.isFinite (e.numberAt place) = true :=
  (isFinite_iff_numberAt h.nodup).mp ⟨h.finite, h.finite_constant⟩ place

section Zeros

variable [Scalar.LawfulZeros K]

theorem unsignZero_numberAt_essential (hn : e.names.Nodup) (place : Option VariableName) :
    Scalar.unsignZero (e.essential.numberAt place) = Scalar.unsignZero (e.numberAt place) := by
  cases place with
  | some name => exact Coefficients.unsignZero_coefficientAt_nonzero hn
  | none =>
    cases hk : Scalar.isZero e.constant with
    | true =>
      change Scalar.unsignZero (Scalar.unsignZero e.constant) = Scalar.unsignZero e.constant
      rw [Scalar.unsignZero_of_isZero hk,
        Scalar.unsignZero_of_isZero Scalar.LawfulZeros.isZero_zero]
    | false =>
      change Scalar.unsignZero (Scalar.unsignZero e.constant) = Scalar.unsignZero e.constant
      rw [Scalar.unsignZero_of_not_isZero hk, Scalar.unsignZero_of_not_isZero hk]

/-- **A linear form is made of its numbers**, and refused if one of them is not finite. -/
theorem computed_ofCoefficients (hn : cs.keys.Nodup)
    (h : ∀ place, Scalar.unsignZero ((linear cs k).numberAt place)
      = Scalar.unsignZero (numbers place)) :
    Computed numbers (ofCoefficients cs k) := by
  have hfinite : ∀ place, Scalar.isFinite ((linear cs k).numberAt place)
      = Scalar.isFinite (numbers place) := fun place => by
    rw [← Scalar.isFinite_unsignZero, h, Scalar.isFinite_unsignZero]
  have hiff := isFinite_iff_numberAt (e := linear cs k) hn
  refine ⟨fun e he place => ?_, fun hall => ?_, fun place hplace => ?_⟩
  · obtain ⟨rfl, -⟩ := ofCoefficients_eq_ok.mp he
    exact h place
  · have hok := hiff.mpr fun place => (hfinite place).trans (hall place)
    exact ⟨_, ofCoefficients_eq_ok.mpr ⟨rfl, hok⟩⟩
  · have hnot : ¬(cs.AreFinite ∧ Scalar.isFinite k = true) := fun hok => by
      have hplace' := hiff.mp hok place
      rw [hfinite, hplace] at hplace'
      cases hplace'
    obtain ⟨v, hv⟩ := ofCoefficients_of_not hnot
    exact ⟨_, hv, rfl⟩

namespace Computed

variable {r r' : Except (ExpressionError K) (Expression K)}

/-- **What is computed shows in the outcome**: results that differ in zeros only are computed
alike. -/
theorem of_outcome (hc : Computed numbers r') (h : outcome r = outcome r')
    (hr : ∀ e, r = .ok e → e.names.Nodup) (hr' : ∀ e, r' = .ok e → e.names.Nodup) :
    Computed numbers r := by
  cases r with
  | error x =>
    refine ⟨nofun, fun hall => ?_, fun place hplace => ?_⟩
    · obtain ⟨e, rfl⟩ := hc.returns hall
      cases h
    · obtain ⟨y, rfl, hy⟩ := hc.refused place hplace
      exact ⟨x, rfl, (Except.error.inj h).trans hy⟩
  | ok e =>
    refine ⟨fun e' he' place => ?_, fun _ => ⟨e, rfl⟩, fun place hplace => ?_⟩
    · cases he'
      cases r' with
      | error y => cases h
      | ok e' =>
        have hessential : e.essential = e'.essential := Except.ok.inj h
        rw [← unsignZero_numberAt_essential (hr e rfl), hessential,
          unsignZero_numberAt_essential (hr' e' rfl)]
        exact hc.numbers_of_ok e' rfl place
    · obtain ⟨y, rfl, -⟩ := hc.refused place hplace
      cases h

/-- The signs of zeros among the numbers do not matter. -/
theorem congr {numbers' : Option VariableName → K} (hc : Computed numbers r)
    (h : ∀ place, Scalar.unsignZero (numbers place) = Scalar.unsignZero (numbers' place)) :
    Computed numbers' r := by
  have hfinite : ∀ place, Scalar.isFinite (numbers place) = Scalar.isFinite (numbers' place) :=
    fun place => by rw [← Scalar.isFinite_unsignZero, h, Scalar.isFinite_unsignZero]
  refine ⟨fun e he place => (hc.numbers_of_ok e he place).trans (h place), fun hall => ?_,
    fun place hplace => hc.refused place ((hfinite place).trans hplace)⟩
  exact hc.returns fun place => (hfinite place).trans (hall place)

omit [Scalar.LawfulZeros K] in
theorem errorClass {x : ExpressionError K} (hc : Computed numbers (.error x)) :
    x.errorClass = .value := by
  by_cases hall : ∀ place, Scalar.isFinite (numbers place) = true
  · obtain ⟨e, he⟩ := hc.returns hall
    cases he
  · obtain ⟨place, hplace⟩ := not_forall.mp hall
    obtain ⟨y, hy, hclass⟩ := hc.refused place (Bool.eq_false_iff.mpr hplace)
    cases hy
    exact hclass

/-- **Steps compute one after the other**, if the second step is one number at a time and gives
finite numbers for finite ones only. -/
theorem bind {g : Expression K → Except (ExpressionError K) (Expression K)}
    {f : Option VariableName → K → K} (hc : Computed numbers r)
    (hg : ∀ e, r = .ok e → Computed (fun place => f place (e.numberAt place)) (g e))
    (hcongr : ∀ place a b, Scalar.unsignZero a = Scalar.unsignZero b →
      Scalar.unsignZero (f place a) = Scalar.unsignZero (f place b))
    (hfinite : ∀ place a, Scalar.isFinite (f place a) = true → Scalar.isFinite a = true) :
    Computed (fun place => f place (numbers place)) (r >>= g) := by
  cases r with
  | ok e => exact (hg e rfl).congr fun place => hcongr place _ _ (hc.numbers_of_ok e rfl place)
  | error x =>
    refine ⟨nofun, fun hall => ?_, fun _ _ => ⟨x, rfl, hc.errorClass⟩⟩
    obtain ⟨e, he⟩ := hc.returns fun place => hfinite place _ (hall place)
    cases he

end Computed

/-! ### Operations -/

/-- **A function that keeps zero computes every number of its result.** -/
theorem computed_mapNumbers {f : K → K} (hf : Scalar.isZero (f Scalar.zero) = true)
    (he : e.IsSound) : Computed (fun place => f (e.numberAt place)) (e.mapNumbers f) := by
  have hkeys : (e.coefficients.mapValues f).keys.Nodup := by
    rw [Entries.keys_mapValues]
    exact he.nodup
  refine (computed_ofCoefficients hkeys fun place => ?_).of_outcome (outcome_mapNumbers hf e)
    (fun e' h => (keeps_mapNumbers f he e' h).1.nodup)
    (fun e' h => (keeps_ofCoefficients _ hkeys e' h).1.nodup)
  cases place with
  | none => rfl
  | some name => exact Coefficients.unsignZero_coefficientAt_mapValues hf e.coefficients

end Zeros

section Sums

variable [Scalar.LawfulSums K] {f : Expression K}

/-- **Merging computes every number of its result.** -/
theorem computed_combine {sign : K} (hsign : Scalar.isFinite sign = true) (he : e.IsSound)
    (hf : f.IsSound) :
    Computed (fun place => e.numberAt place + sign * f.numberAt place) (combine sign e f) := by
  have hkeys : (mergeInto (sign * ·) e.coefficients f.coefficients).keys.Nodup :=
    (mergeInto_keys _ _ _).2 he.nodup
  have hzero : Scalar.isZero (sign * Scalar.zero) = true :=
    Scalar.LawfulZeros.mul_isZero hsign Scalar.LawfulZeros.isZero_zero
  refine (computed_ofCoefficients hkeys fun place => ?_).of_outcome (outcome_combine hsign e f)
    (fun e' h => (keeps_combine sign he e' h).1.nodup)
    (fun e' h => (keeps_ofCoefficients _ hkeys e' h).1.nodup)
  cases place with
  | none => rfl
  | some name => exact Coefficients.unsignZero_coefficientAt_mergeInto hzero _ hf.nodup

/-- Adding to the constant computes the sum with a number. -/
theorem computed_shift (he : e.IsSound) (k : K) :
    Computed (fun place => e.numberAt place + (Operand.number k).numberAt place) (e.shift k) := by
  refine computed_ofCoefficients he.nodup fun place => ?_
  cases place with
  | none => rfl
  | some name => exact (Scalar.unsignZero_add_zero Scalar.LawfulZeros.isZero_zero).symm

/-- A total has at every place the numbers of the items, added up from the left. -/
theorem unsignZero_numberAt_foldl_plus (place : Option VariableName) :
    ∀ (items : List (Expression K)) (s : Sum K) (start : K), (∀ e ∈ items, e.IsSound) →
      Scalar.unsignZero (s.form.numberAt place) = Scalar.unsignZero start →
      Scalar.unsignZero ((items.foldl Sum.plus s).form.numberAt place)
        = Scalar.unsignZero (items.foldl (fun total e => total + e.numberAt place) start)
  | [], _, _, _, h => h
  | e :: items, s, start, hitems, h => by
    obtain ⟨he, hitems⟩ := List.forall_mem_cons.mp hitems
    refine unsignZero_numberAt_foldl_plus place items (s.plus e) _ hitems ?_
    have hplus : Scalar.unsignZero ((s.plus e).form.numberAt place)
        = Scalar.unsignZero (s.form.numberAt place + e.numberAt place) := by
      cases place with
      | none => rfl
      | some name =>
        exact Coefficients.unsignZero_coefficientAt_mergeInto (f := id)
          Scalar.LawfulZeros.isZero_zero _ he.nodup
    rw [hplus]
    exact Scalar.unsignZero_add_congr h _

/-- **A sum computes every number from the left.** -/
theorem computed_sum {items : List (Expression K)} (h : ∀ e ∈ items, e.IsSound) :
    Computed (fun place => items.foldl (fun total e => total + e.numberAt place) Scalar.zero)
      (sum items) := by
  have hkeys := (sum_keys items ⟨[], Scalar.zero⟩ List.nodup_nil).1
  refine computed_ofCoefficients hkeys fun place => ?_
  refine unsignZero_numberAt_foldl_plus place items ⟨[], Scalar.zero⟩ Scalar.zero h ?_
  cases place <;> rfl

end Sums

section Operations

variable [Scalar.LawfulOperations K] {f : Expression K}

theorem computed_add (he : e.IsSound) (hf : f.IsSound) :
    Computed (fun place => e.numberAt place + f.numberAt place) (e.add f) :=
  (computed_combine Scalar.LawfulUnits.isFinite_one he hf).congr fun place => by
    rw [Scalar.LawfulSums.one_mul]

theorem computed_sub (he : e.IsSound) (hf : f.IsSound) :
    Computed (fun place => e.numberAt place - f.numberAt place) (e.sub f) :=
  (computed_combine Scalar.LawfulZeros.isFinite_neg_one he hf).congr fun place => by
    rw [Scalar.LawfulOperations.neg_one_mul, Scalar.LawfulOperations.add_neg]

theorem computed_neg (he : e.IsSound) : Computed (fun place => -e.numberAt place) e.neg :=
  computed_mapNumbers (Scalar.LawfulZeros.isZero_neg Scalar.LawfulZeros.isZero_zero) he

theorem computed_addScalar (he : e.IsSound) (hk : Scalar.isFinite k = true) :
    Computed (fun place => e.numberAt place + (Operand.number k).numberAt place)
      (e.addScalar k) := by
  rw [addScalar, finite_eq_ok.mpr ⟨rfl, hk⟩, ok_bind]
  exact computed_shift he k

theorem computed_subScalar (he : e.IsSound) (hk : Scalar.isFinite k = true) :
    Computed (fun place => e.numberAt place - (Operand.number k).numberAt place)
      (e.subScalar k) := by
  rw [subScalar, finite_eq_ok.mpr ⟨rfl, hk⟩, ok_bind]
  refine (computed_shift he (-k)).congr fun place => ?_
  rw [← Scalar.LawfulOperations.add_neg]
  cases place with
  | none => rfl
  | some name =>
    have hzero : Scalar.isZero (Scalar.zero : K) = true := Scalar.LawfulZeros.isZero_zero
    change Scalar.unsignZero (_ + Scalar.zero) = Scalar.unsignZero (_ + -Scalar.zero)
    rw [Scalar.unsignZero_add_zero hzero,
      Scalar.unsignZero_add_zero (Scalar.LawfulZeros.isZero_neg hzero)]

/-- The negated expression is added to a number. -/
theorem computed_scalarSub (he : e.IsSound) (hk : Scalar.isFinite k = true) :
    Computed (fun place => (Operand.number k).numberAt place - e.numberAt place)
      (scalarSub k e) := by
  have hbind := (computed_neg he).bind
    (f := fun place a => a + (Operand.number k).numberAt place)
    (fun negated h => computed_shift (keeps_neg he negated h).1 k)
    (fun place a b h => Scalar.unsignZero_add_congr h _)
    (fun place a h => Scalar.LawfulSums.isFinite_of_add h)
  have hsub : scalarSub k e = e.neg >>= (shift · k) := by
    rw [scalarSub, finite_eq_ok.mpr ⟨rfl, hk⟩, ok_bind]
  rw [hsub]
  refine hbind.congr fun place => ?_
  rw [Scalar.LawfulOperations.add_comm, Scalar.LawfulOperations.add_neg]

omit [Scalar.LawfulOperations K] in
theorem scale_eq (e : Expression K) (hk : Scalar.isFinite k = true) :
    e.scale k = if Scalar.isZero k then .ok empty else e.mapNumbers (· * k) := by
  rw [scale, finite_eq_ok.mpr ⟨rfl, hk⟩]
  rfl

theorem computed_scale (he : e.IsSound) (hk : Scalar.isFinite k = true) :
    Computed (fun place => e.numberAt place * k) (e.scale k) := by
  rw [scale_eq e hk]
  by_cases hzero : Scalar.isZero k = true
  · -- every product with zero is zero
    rw [if_pos hzero]
    have hform : ofCoefficients [] (Scalar.zero : K) = .ok empty :=
      ofCoefficients_eq_ok.mpr ⟨rfl, List.forall_mem_nil _, Scalar.LawfulUnits.isFinite_zero⟩
    refine hform ▸ computed_ofCoefficients List.nodup_nil fun place => ?_
    have hproduct : Scalar.isZero (e.numberAt place * k) = true :=
      Scalar.LawfulZeros.mul_isZero (he.isFinite_numberAt place) hzero
    rw [Scalar.unsignZero_of_isZero hproduct]
    cases place <;> exact Scalar.unsignZero_of_isZero Scalar.LawfulZeros.isZero_zero
  · have hproduct : Scalar.isZero (Scalar.zero * k) = true :=
      Scalar.LawfulZeros.isZero_mul Scalar.LawfulZeros.isZero_zero hk
    rw [if_neg hzero]
    exact computed_mapNumbers (f := (· * k)) hproduct he

omit [Scalar.LawfulOperations K] in
theorem divide_eq (e : Expression K) (hk : Scalar.isFinite k = true) :
    e.divide k = if Scalar.isZero k then .error (.divisionByZero e)
      else e.mapNumbers (· / k) := by
  rw [divide, finite_eq_ok.mpr ⟨rfl, hk⟩, ok_bind]
  change (if Scalar.isZero k = true then _ else _) = _
  split_ifs <;> rfl

theorem computed_divide (he : e.IsSound) (hk : Scalar.isFinite k = true)
    (hne : Scalar.isZero k = false) :
    Computed (fun place => e.numberAt place / k) (e.divide k) := by
  have hquotient : Scalar.isZero (Scalar.zero / k) = true :=
    Scalar.LawfulZeros.isZero_div Scalar.LawfulZeros.isZero_zero hk hne
  rw [divide_eq e hk, if_neg (Bool.eq_false_iff.mp hne)]
  exact computed_mapNumbers (f := (· / k)) hquotient he

/-- **A mean computes the sums first**, and then every quotient by the number of items. -/
theorem computed_average {items : List (Expression K)} (hne : items ≠ [])
    (h : ∀ e ∈ items, e.IsSound) (hk : Scalar.isFinite (Scalar.ofNat items.length : K) = true)
    (hz : Scalar.isZero (Scalar.ofNat items.length : K) = false) :
    Computed (fun place => items.foldl (fun total e => total + e.numberAt place) Scalar.zero
      / Scalar.ofNat items.length) (average items) := by
  have hbind := (computed_sum h).bind (f := fun _ a => a / Scalar.ofNat items.length)
    (fun total htotal => computed_divide (keeps_sum items total htotal).1 hk hz)
    (fun _ a b hab => Scalar.unsignZero_div_congr hab hk hz)
    (fun _ a ha => Scalar.LawfulOperations.isFinite_of_div ha)
  have haverage : average items = sum items >>= (divide · (Scalar.ofNat items.length)) := by
    rw [average, if_neg (by simpa using hne)]
  rw [haverage]
  exact hbind

omit [Scalar.LawfulOperations K] in
/-- There is no mean of a number of items that cannot be divided by. -/
theorem average_eq_error {items : List (Expression K)}
    (h : Scalar.isFinite (Scalar.ofNat items.length : K) = false ∨
      Scalar.isZero (Scalar.ofNat items.length : K) = true) :
    ∃ r, average items = .error r := by
  rw [average]
  split_ifs
  · exact ⟨_, rfl⟩
  · cases sum items with
    | error r => exact ⟨r, rfl⟩
    | ok total =>
      change ∃ r, total.divide _ = .error r
      by_cases hk : Scalar.isFinite (Scalar.ofNat items.length : K) = true
      · rw [divide_eq total hk, if_pos (h.resolve_left (by simp [hk]))]
        exact ⟨_, rfl⟩
      · have herror : finite (Scalar.ofNat items.length : K) = .error (.notFinite _) := if_neg hk
        rw [divide, herror]
        exact ⟨_, rfl⟩

end Operations

end Expression

/-! ### Operators -/

namespace Operand

open Expression

variable {x y : Operand K} {op : Operation}

/-- Sound expressions, and numbers that are finite. -/
def IsProper : Operand K → Prop
  | .expression e => e.IsSound
  | .number k => Scalar.isFinite k = true
  | .other _ => False

/-- A number that is not finite is refused by every operation that applies to it. -/
theorem combine_of_not_isFinite (op : Operation) (e : Expression K) {k : K}
    (hk : Scalar.isFinite k = false) :
    combine op (.expression e) (.number k) = .error (.expression (.notFinite k)) ∧
      (op ≠ .div →
        combine op (.number k) (.expression e) = .error (.expression (.notFinite k))) := by
  have hfinite : finite k = .error (.notFinite k) := if_neg (Bool.eq_false_iff.mp hk)
  cases op <;>
    simp [combine, Operation.onExpression, Operation.afterNumber?, addScalar, subScalar, scalarSub,
      scale, divide, hfinite, Except.mapError]

/-- **Every linear operation computes the numbers of its result.** Nothing is divided by zero. -/
theorem computed_combine [Scalar.LawfulOperations K] (hx : x.IsProper) (hy : y.IsProper)
    (hop : op.isLinear x.isNumber y.isNumber = true)
    (hdiv : op = .div → Scalar.isZero (y.numberAt none) = false) :
    ∃ r, combine op x y = r.mapError .expression ∧
      Computed (fun place => op.computed x y place) r := by
  match x, y with
  | .expression e, .expression f =>
    cases op with
    | add => exact ⟨_, rfl, computed_add hx hy⟩
    | sub => exact ⟨_, rfl, computed_sub hx hy⟩
    | mul => cases hop
    | div => cases hop
  | .expression e, .number k =>
    cases op with
    | add => exact ⟨_, rfl, computed_addScalar hx hy⟩
    | sub => exact ⟨_, rfl, computed_subScalar hx hy⟩
    | mul => exact ⟨_, rfl, computed_scale hx hy⟩
    | div => exact ⟨_, rfl, computed_divide hx hy (hdiv rfl)⟩
  | .number k, .expression e =>
    cases op with
    | add =>
      refine ⟨_, rfl, (computed_addScalar hy hx).congr fun place => ?_⟩
      exact congrArg _ (Scalar.LawfulOperations.add_comm _ _)
    | sub => exact ⟨_, rfl, computed_scalarSub hy hx⟩
    | mul =>
      refine ⟨_, rfl, (computed_scale hy hx).congr fun place => ?_⟩
      exact congrArg _ (Scalar.LawfulOperations.mul_comm _ _)
    | div => cases hop
  | .number _, .number _ => cases op <;> cases hop
  | .other _, _ => exact hx.elim
  | .expression _, .other _ | .number _, .other _ => exact hy.elim

end Operand
end LinModel
