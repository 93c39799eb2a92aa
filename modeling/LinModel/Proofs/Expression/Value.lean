import LinModel.Proofs.Expression.Sound
import LinModel.Proofs.Extended

/-!
# Operations on exact numbers

Over exact numbers every operation on sound expressions returns, and the value of its result at
every point is that of the operation on the values of its operands. The value of a sound
expression is a rational (`valueAt_eq`), the sum of its terms and its constant, and merging an
entry into a list of coefficients adds one term to the sum (`termsAt_put`). A constraint of sound
expressions holds where the rationals compare as it says (`holdsAt_iff`).

Key definitions: `Point`, `Expression.valueAt`, `Expression.exactAt`, `Expression.Computes`,
`Relationship.Relates`, `Constraint.HoldsAt`.
Key theorems: `Expression.valueAt_eq`, `Expression.computes_mapNumbers`,
`Expression.computes_combine`, `Expression.computes_sum`, `Expression.computes_average`,
`Constraint.holdsAt_iff`.
-/
namespace LinModel

open Extended

/-- An assignment of rationals to names. -/
abbrev Point := VariableName → ℚ

/-- The value of an expression at a point. -/
def Expression.valueAt (e : Expression Extended) (v : Point) : Extended :=
  e.evaluate fun name => .rational (v name)

/-- The sum of the terms at a point. -/
def Coefficients.termsAt (cs : Coefficients Extended) (v : Point) : ℚ :=
  (cs.map fun (name, c) => c.toRat * v name).sum

/-- The sum of the terms and the constant at a point. -/
def Expression.exactAt (e : Expression Extended) (v : Point) : ℚ :=
  e.coefficients.termsAt v + e.constant.toRat

namespace Coefficients

variable {cs : Coefficients Extended} (v : Point)

@[simp] theorem termsAt_nil : termsAt [] v = 0 := rfl

@[simp] theorem termsAt_cons (name : VariableName) (c : Extended) :
    termsAt ((name, c) :: cs) v = c.toRat * v name + cs.termsAt v := List.sum_cons

theorem AreFinite.tail {name : VariableName} {c : Extended} (h : AreFinite ((name, c) :: cs)) :
    cs.AreFinite := fun entry hentry => h entry (List.mem_cons_of_mem _ hentry)

/-- The first of finite coefficients is a rational. -/
theorem AreFinite.head {name : VariableName} {c : Extended} (h : AreFinite ((name, c) :: cs)) :
    ∃ q, c = rational q := isFinite_iff.mp (h _ List.mem_cons_self)

/-- Adding up finite terms from a rational on gives a rational. -/
theorem foldl_terms : ∀ (cs : Coefficients Extended), cs.AreFinite → ∀ k : ℚ,
    cs.foldl (fun total (name, c) => total + c * rational (v name)) (rational k)
      = rational (k + cs.termsAt v)
  | [], _, k => by simp
  | (name, c) :: cs, h, k => by
    obtain ⟨q, rfl⟩ := h.head
    simp only [List.foldl_cons, rational_mul, rational_add, termsAt_cons, toRat_rational]
    rw [foldl_terms cs h.tail, add_assoc]

/-- Putting a coefficient in the place of another changes one term of the sum. -/
theorem termsAt_put (name : VariableName) (x : Extended) : ∀ cs : Coefficients Extended,
    termsAt (cs.put name x) v
      = cs.termsAt v + (x.toRat - ((cs.find? name).getD (rational 0)).toRat) * v name
  | [] => by simp [Entries.put]
  | (n, c) :: cs => by
    by_cases h : n == name
    · have : n = name := by simpa using h
      subst this
      simp only [Entries.put_cons, Entries.find?_cons, beq_self_eq_true, ↓reduceIte, termsAt_cons,
        Option.getD_some]
      ring
    · simp only [Entries.put_cons, Entries.find?_cons, h, Bool.false_eq_true, ↓reduceIte,
        termsAt_cons]
      rw [termsAt_put name x cs]
      ring

/-- A name has a finite coefficient, or none. -/
theorem AreFinite.find (h : cs.AreFinite) (name : VariableName) :
    ∃ q, (cs.find? name).getD (rational 0) = rational q := by
  cases hf : cs.find? name with
  | none => exact ⟨0, rfl⟩
  | some c =>
    obtain ⟨n, hn⟩ := Entries.exists_mem_of_find? hf
    exact isFinite_iff.mp (h _ hn)

/-- Multiplying every coefficient multiplies the sum. -/
theorem termsAt_mapValues {f : Extended → Extended} {s : ℚ}
    (hf : ∀ q, f (rational q) = rational (q * s)) : ∀ {cs : Coefficients Extended}, cs.AreFinite →
    AreFinite (cs.mapValues f) ∧ termsAt (cs.mapValues f) v = cs.termsAt v * s
  | [], _ => by simp [AreFinite, Entries.mapValues, termsAt]
  | (name, c) :: cs, h => by
    obtain ⟨q, rfl⟩ := h.head
    obtain ⟨hfin, hsum⟩ := termsAt_mapValues hf h.tail
    have hcons : Entries.mapValues f ((name, rational q) :: cs)
        = (name, rational (q * s)) :: Entries.mapValues f cs := by simp [Entries.mapValues, hf]
    rw [hcons]
    refine ⟨List.forall_mem_cons.mpr ⟨rfl, hfin⟩, ?_⟩
    rw [termsAt_cons, termsAt_cons, hsum, toRat_rational, toRat_rational]
    ring

/-- Merging multiples of coefficients into others adds that multiple of their terms. -/
theorem termsAt_mergeInto {f : Extended → Extended} {s : ℚ}
    (hf : ∀ q, f (rational q) = rational (q * s)) :
    ∀ {added start : Coefficients Extended}, added.AreFinite → start.AreFinite →
      AreFinite (Expression.mergeInto f start added) ∧
        termsAt (Expression.mergeInto f start added) v = start.termsAt v + added.termsAt v * s
  | [], start, _, hs => ⟨hs, by simp [Expression.mergeInto]⟩
  | (name, c) :: added, start, ha, hs => by
    obtain ⟨q, rfl⟩ := ha.head
    obtain ⟨p, hp⟩ := hs.find name
    have hput : (start.find? name).getD Scalar.zero + f (rational q) = rational (p + q * s) := by
      rw [scalar_zero, hp, hf, rational_add]
    have hs' : AreFinite (start.put name (rational (p + q * s))) := fun entry hentry => by
      rcases Entries.mem_of_mem_put hentry with h | h
      · rw [h]
        rfl
      · exact hs entry h
    obtain ⟨hfin, hsum⟩ := termsAt_mergeInto hf ha.tail hs'
    have hstep : Expression.mergeInto f start ((name, rational q) :: added)
        = Expression.mergeInto f (start.put name (rational (p + q * s))) added := by
      rw [← hput]
      rfl
    rw [hstep]
    refine ⟨hfin, ?_⟩
    rw [hsum, termsAt_put, hp, termsAt_cons, toRat_rational, toRat_rational, toRat_rational]
    ring

end Coefficients

namespace Expression

/-- Evaluating adds the terms to the constant from left to right. -/
theorem evaluate_eq_foldl {K : Type} [Scalar K] (e : Expression K) (values : VariableName → K) :
    e.evaluate values
      = e.coefficients.foldl (fun total (name, c) => total + c * values name) e.constant := by
  exact List.foldlM_pure (m := Id)

/-- The value of a sound expression is a rational. -/
theorem valueAt_eq {e : Expression Extended} (h : e.IsSound) (v : Point) :
    e.valueAt v = rational (e.exactAt v) := by
  obtain ⟨k, hk⟩ := isFinite_iff.mp h.finite_constant
  rw [valueAt, evaluate_eq_foldl, hk, Coefficients.foldl_terms v _ h.finite, exactAt, hk, add_comm]
  rfl

theorem isSound_term (name : VariableName) (q : ℚ) : (term name (rational q)).IsSound where
  finite := by simp [Coefficients.AreFinite, coefficients]
  finite_constant := rfl
  nodup := List.nodup_singleton _

@[simp] theorem exactAt_variable (x : Variable Extended) (v : Point) :
    (Expression.variable x).exactAt v = v x.name := by
  simp [exactAt, coefficients, constant]

@[simp] theorem exactAt_term (name : VariableName) (c : Extended) (v : Point) :
    (Expression.term name c).exactAt v = c.toRat * v name := by
  simp [exactAt, coefficients, constant]

@[simp] theorem exactAt_linear (cs : Coefficients Extended) (k : Extended) (v : Point) :
    (Expression.linear cs k).exactAt v = cs.termsAt v + k.toRat := rfl

@[simp] theorem exactAt_empty (v : Point) : (empty : Expression Extended).exactAt v = 0 := by
  simp [empty]

/-! ### Results of operations -/

/-- An expression with a value at every point is returned. -/
def Computes {ε : Type} (result : Except ε (Expression Extended)) (value : Point → ℚ) : Prop :=
  ∃ e, result = .ok e ∧ ∀ v, e.exactAt v = value v

section Computes

variable {ε ε' : Type} {result : Except ε (Expression Extended)} {value value' : Point → ℚ}

theorem Computes.congr (h : Computes result value) (hv : ∀ v, value v = value' v) :
    Computes result value' :=
  h.imp fun _ he => ⟨he.1, fun v => (he.2 v).trans (hv v)⟩

theorem Computes.mapError (h : Computes result value) (g : ε → ε') :
    Computes (result.mapError g) value :=
  h.imp fun _ he => ⟨mapError_eq_ok.mpr he.1, he.2⟩

/-- A step after a sound result. -/
theorem Computes.bind {f : Expression Extended → Except ε (Expression Extended)}
    {names : List VariableName} (h : Computes result value) (hk : Keeps result names)
    (hf : ∀ e, e.IsSound → (∀ v, e.exactAt v = value v) → Computes (f e) value') :
    Computes (result >>= f) value' := by
  obtain ⟨e, he, hv⟩ := h
  rw [he, ok_bind]
  exact hf e (hk e he).1 hv

end Computes

variable {e l r : Expression Extended}

theorem computes_ofCoefficients {cs : Coefficients Extended} (h : cs.AreFinite) (k : ℚ) :
    Computes (ofCoefficients cs (rational k)) fun v => cs.termsAt v + k :=
  ⟨.linear cs (rational k), ofCoefficients_eq_ok.mpr ⟨rfl, h, rfl⟩, fun _ => rfl⟩

theorem computes_ofScalar (k : ℚ) : Computes (ofScalar (rational k)) fun _ => k :=
  (computes_ofCoefficients (List.forall_mem_nil _) k).congr fun v => by simp

theorem computes_ofTermOrEmpty (name : VariableName) (c : ℚ) :
    Computes (ofTermOrEmpty name (rational c)) fun v => c * v name := by
  by_cases hc : c = 0
  · exact ⟨empty, by simp [ofTermOrEmpty, hc], fun v => by simp [hc]⟩
  · exact ⟨.term name (rational c), by simp [ofTermOrEmpty, hc, ofTerm, finite],
      fun v => by simp⟩

/-- Multiplying every number multiplies the value. -/
theorem computes_mapNumbers {f : Extended → Extended} {s : ℚ}
    (hf : ∀ q, f (rational q) = rational (q * s)) : ∀ {e : Expression Extended}, e.IsSound →
    Computes (e.mapNumbers f) fun v => e.exactAt v * s
  | .variable x, _ => by
    rw [mapNumbers, scalar_one, hf]
    exact (computes_ofTermOrEmpty x.name (1 * s)).congr fun v => by rw [exactAt_variable]; ring
  | .term name c, h => by
    obtain ⟨q, rfl⟩ := Coefficients.AreFinite.head h.finite
    rw [mapNumbers, hf]
    refine (computes_ofTermOrEmpty name (q * s)).congr fun v => ?_
    rw [exactAt_term, toRat_rational]
    ring
  | .linear cs k, h => by
    obtain ⟨q, rfl⟩ := isFinite_iff.mp h.finite_constant
    have hcs := fun v => Coefficients.termsAt_mapValues v hf h.finite
    rw [mapNumbers, hf]
    refine (computes_ofCoefficients (hcs 0).1 (q * s)).congr fun v => ?_
    rw [(hcs v).2, exactAt_linear, toRat_rational]
    exact (add_mul _ _ _).symm

theorem computes_neg (h : e.IsSound) : Computes e.neg fun v => -e.exactAt v := by
  refine (computes_mapNumbers (s := -1) (fun q => ?_) h).congr fun v => by ring
  rw [rational_neg, mul_neg_one]

/-- **A merge adds.** Each shape of the operands gives the first and a multiple of the second. -/
theorem computes_combine (s : ℚ) (hl : l.IsSound) (hr : r.IsSound) :
    Computes (combine (rational s) l r) fun v => l.exactAt v + s * r.exactAt v := by
  have hf : ∀ q, rational s * rational q = rational (q * s) := fun q => by
    rw [rational_mul, mul_comm]
  have hmerge : Computes (ofCoefficients
      (mergeInto (rational s * ·) l.coefficients r.coefficients)
      (l.constant + rational s * r.constant)) fun v => l.exactAt v + s * r.exactAt v := by
    obtain ⟨j, hj⟩ := isFinite_iff.mp hl.finite_constant
    obtain ⟨k, hk⟩ := isFinite_iff.mp hr.finite_constant
    have hm := fun v => Coefficients.termsAt_mergeInto v hf hr.finite hl.finite
    rw [hj, hk, hf, rational_add]
    refine (computes_ofCoefficients (hm 0).1 _).congr fun v => ?_
    rw [(hm v).2, exactAt, exactAt, hj, hk, toRat_rational, toRat_rational]
    ring
  have hterms : ∀ (m n : VariableName) (a b : ℚ),
      Computes (if m = n then ofTermOrEmpty m (rational a + rational s * rational b)
        else ofCoefficients [(m, rational a), (n, rational s * rational b)] Scalar.zero)
        fun v => a * v m + s * (b * v n) := by
    intro m n a b
    split_ifs with hmn
    · subst hmn
      exact (computes_ofTermOrEmpty m (a + s * b)).congr fun v => by ring
    · have hfin : Coefficients.AreFinite [(m, rational a), (n, rational (s * b))] := by
        simp [Coefficients.AreFinite]
      exact (computes_ofCoefficients hfin 0).congr fun v => by simp; ring
  cases l with
  | linear => exact hmerge
  | «variable» x =>
    cases r with
    | linear => exact hmerge
    | «variable» y => exact (hterms x.name y.name 1 1).congr fun v => by simp
    | term n b =>
      obtain ⟨b, rfl⟩ := Coefficients.AreFinite.head hr.finite
      exact (hterms x.name n 1 b).congr fun v => by simp
  | term m a =>
    obtain ⟨a, rfl⟩ := Coefficients.AreFinite.head hl.finite
    cases r with
    | linear => exact hmerge
    | «variable» y => exact (hterms m y.name a 1).congr fun v => by simp
    | term n b =>
      obtain ⟨b, rfl⟩ := Coefficients.AreFinite.head hr.finite
      exact (hterms m n a b).congr fun v => by simp

theorem computes_add (hl : l.IsSound) (hr : r.IsSound) :
    Computes (l.add r) fun v => l.exactAt v + r.exactAt v :=
  (computes_combine 1 hl hr).congr fun v => by rw [one_mul]

theorem computes_sub (hl : l.IsSound) (hr : r.IsSound) :
    Computes (l.sub r) fun v => l.exactAt v - r.exactAt v :=
  (computes_combine (-1) hl hr).congr fun v => by ring

theorem computes_shift (h : e.IsSound) (k : ℚ) :
    Computes (e.shift (rational k)) fun v => e.exactAt v + k := by
  obtain ⟨j, hj⟩ := isFinite_iff.mp h.finite_constant
  rw [shift, hj, rational_add]
  refine (computes_ofCoefficients h.finite (j + k)).congr fun v => ?_
  rw [exactAt, hj, toRat_rational, add_assoc]

theorem computes_addScalar (h : e.IsSound) (k : ℚ) :
    Computes (e.addScalar (rational k)) fun v => e.exactAt v + k :=
  computes_shift h k

theorem computes_subScalar (h : e.IsSound) (k : ℚ) :
    Computes (e.subScalar (rational k)) fun v => e.exactAt v - k :=
  (computes_shift h (-k)).congr fun v => by ring

theorem computes_scalarSub (h : e.IsSound) (k : ℚ) :
    Computes (scalarSub (rational k) e) fun v => k - e.exactAt v :=
  (computes_neg h).bind (keeps_neg h) fun negated hs hv =>
    (computes_shift hs k).congr fun v => by rw [hv]; ring

theorem computes_scale (h : e.IsSound) (k : ℚ) :
    Computes (e.scale (rational k)) fun v => e.exactAt v * k := by
  by_cases hk : k = 0
  · exact ⟨empty, by simp [scale, finite, hk]; rfl, fun v => by simp [hk]⟩
  · have heq : e.scale (rational k) = e.mapNumbers (· * rational k) := by
      simp [scale, finite, hk]
    rw [heq]
    exact computes_mapNumbers (fun q => rational_mul q k) h

theorem computes_divide (h : e.IsSound) {k : ℚ} (hk : k ≠ 0) :
    Computes (e.divide (rational k)) fun v => e.exactAt v / k := by
  have heq : e.divide (rational k) = e.mapNumbers (· / rational k) := by
    simp [divide, finite, hk]
  rw [heq]
  refine (computes_mapNumbers (fun q => ?_) h).congr fun v => (div_eq_mul_inv _ _).symm
  rw [rational_div q hk, div_eq_mul_inv]

/-! ### Sums -/

/-- The running sum holds rationals, and each item adds its value. -/
theorem sum_exactAt (v : Point) : ∀ (items : List (Expression Extended))
    (cs : Coefficients Extended) (k : ℚ), (∀ e ∈ items, e.IsSound) → cs.AreFinite →
    ∃ k', (items.foldl Sum.plus ⟨cs, rational k⟩).constant = rational k' ∧
      (items.foldl Sum.plus ⟨cs, rational k⟩).coefficients.AreFinite ∧
      (items.foldl Sum.plus ⟨cs, rational k⟩).coefficients.termsAt v + k'
        = cs.termsAt v + k + (items.map (exactAt · v)).sum
  | [], cs, k, _, hcs => ⟨k, rfl, hcs, by simp⟩
  | e :: items, cs, k, h, hcs => by
    obtain ⟨he, hitems⟩ := List.forall_mem_cons.mp h
    obtain ⟨j, hj⟩ := isFinite_iff.mp he.finite_constant
    obtain ⟨hfin, hsum⟩ := Coefficients.termsAt_mergeInto v (f := id) (s := 1)
      (fun q => by rw [mul_one]; rfl) he.finite hcs
    have hplus : Sum.plus ⟨cs, rational k⟩ e
        = ⟨mergeInto id cs e.coefficients, rational (k + j)⟩ := by
      rw [Sum.plus, hj, rational_add]
    obtain ⟨k', hk', hfin', hsum'⟩ := sum_exactAt v items _ (k + j) hitems hfin
    rw [List.foldl_cons, hplus]
    refine ⟨k', hk', hfin', ?_⟩
    rw [hsum', hsum, List.map_cons, List.sum_cons, exactAt, hj, toRat_rational]
    ring

theorem computes_sum {items : List (Expression Extended)} (h : ∀ e ∈ items, e.IsSound) :
    Computes (sum items) fun v => (items.map (exactAt · v)).sum := by
  obtain ⟨k, hk, hfin, -⟩ := sum_exactAt 0 items [] 0 h (List.forall_mem_nil _)
  rw [sum, scalar_zero, hk]
  refine (computes_ofCoefficients hfin k).congr fun v => ?_
  obtain ⟨k', hk', -, hsum⟩ := sum_exactAt v items [] 0 h (List.forall_mem_nil _)
  cases hk.symm.trans hk'
  simpa using hsum

theorem computes_average {items : List (Expression Extended)} (h : ∀ e ∈ items, e.IsSound)
    (hne : items ≠ []) :
    Computes (average items) fun v => (items.map (exactAt · v)).sum / items.length := by
  have hlen : (items.length : ℚ) ≠ 0 := by simpa using hne
  have heq : average items
      = sum items >>= fun total => total.divide (Scalar.ofNat items.length) := by
    simp [average, hne]
  rw [heq]
  refine (computes_sum h).bind (keeps_sum items) fun total hs hv => ?_
  exact (computes_divide hs hlen).congr fun v => by rw [hv]

end Expression

/-! ### Constraints -/

/-- Whether numbers compare as a relationship says. -/
def Relationship.compares (x y : Extended) : Relationship → Bool
  | .le => Scalar.le x y
  | .eq => Scalar.beq x y
  | .ge => Scalar.le y x

/-- Rationals that compare as a relationship says. -/
def Relationship.Relates (x y : ℚ) : Relationship → Prop
  | .le => x ≤ y
  | .eq => x = y
  | .ge => y ≤ x

@[simp] theorem Relationship.compares_rational (x y : ℚ) : ∀ r : Relationship,
    r.compares (rational x) (rational y) = true ↔ r.Relates x y
  | .le | .eq | .ge => by simp [compares, Relates]

theorem Relationship.relates_reversed (x y : ℚ) : ∀ r : Relationship,
    r.reversed.Relates x y ↔ r.Relates y x
  | .le | .ge => Iff.rfl
  | .eq => eq_comm

namespace Constraint

variable {L : Type} {c : Constraint Extended L}

/-- The values of the two sides compare as written. -/
def HoldsAt (c : Constraint Extended L) (v : Point) : Prop :=
  c.relationship.compares (c.left.valueAt v) (c.right.valueAt v) = true

theorem holdsAt_iff (hl : c.left.IsSound) (hr : c.right.IsSound) (v : Point) :
    c.HoldsAt v ↔ c.relationship.Relates (c.left.exactAt v) (c.right.exactAt v) := by
  rw [HoldsAt, Expression.valueAt_eq hl, Expression.valueAt_eq hr, Relationship.compares_rational]

end Constraint
end LinModel
