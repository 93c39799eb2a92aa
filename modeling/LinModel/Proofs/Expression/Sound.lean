import Mathlib.Data.List.Nodup
import LinModel.Expression.Operators
import LinModel.Proofs.Results

/-!
# Sound expressions

An expression is sound if all its numbers are finite and no name occurs in it twice. Whatever an
operation returns is sound and mentions only names of its operands, for every kind of number: the
numbers of a result are checked where it is made, and merging puts every name in one place.

Key definitions: `Coefficients.AreFinite`, `Expression.IsSound`, `Expression.Keeps`.
Key theorems: `Expression.ofCoefficients_eq_ok`, `Expression.ofCoefficients_of_not`,
`Expression.keeps_mapNumbers`, `Expression.keeps_combine`, `Expression.keeps_sum`,
`Expression.keeps_average`.
-/
namespace LinModel

variable {K : Type} [Scalar K]

/-- All coefficients are finite. -/
def Coefficients.AreFinite (cs : Coefficients K) : Prop :=
  ∀ entry ∈ cs, Scalar.isFinite entry.2 = true

namespace Expression

/-- All numbers are finite and no name occurs twice. -/
structure IsSound (e : Expression K) : Prop where
  finite : e.coefficients.AreFinite
  finite_constant : Scalar.isFinite e.constant = true
  nodup : e.names.Nodup

/-- Whatever is returned is sound and mentions only the given names. -/
def Keeps {ε : Type} (result : Except ε (Expression K)) (names : List VariableName) : Prop :=
  ∀ e, result = .ok e → e.IsSound ∧ e.names ⊆ names

section Keeps

variable {ε ε' α : Type} {names : List VariableName}

theorem Keeps.ok {e : Expression K} (h : e.IsSound) (hn : e.names ⊆ names) :
    Keeps (.ok e : Except ε _) names := by
  rintro _ ⟨⟩
  exact ⟨h, hn⟩

theorem Keeps.error (x : ε) : Keeps (.error x : Except ε (Expression K)) names := nofun

theorem Keeps.bind {x : Except ε α} {f : α → Except ε (Expression K)}
    (h : ∀ a, x = .ok a → Keeps (f a) names) : Keeps (x >>= f) names := by
  intro e he
  obtain ⟨a, ha, he⟩ := bind_eq_ok.mp he
  exact h a ha e he

theorem Keeps.mapError {result : Except ε (Expression K)} (g : ε → ε') (h : Keeps result names) :
    Keeps (result.mapError g) names :=
  fun e he => h e (mapError_eq_ok.mp he)

theorem Keeps.mono {result : Except ε (Expression K)} {names' : List VariableName}
    (h : Keeps result names) (hn : names ⊆ names') : Keeps result names' :=
  fun e he => (h e he).imp_right fun hs => List.Subset.trans hs hn

end Keeps

/-- A single term has its coefficient and no constant. -/
theorem of_term? {name : VariableName} {c : K} : ∀ {e : Expression K}, e.term? = some (name, c) →
    e.coefficients = [(name, c)] ∧ e.constant = Scalar.zero
  | .variable _, h => by
    cases h
    exact ⟨rfl, rfl⟩
  | .term _ _, h => by
    cases h
    exact ⟨rfl, rfl⟩
  | .linear _ _, h => by cases h

/-! ### Making expressions -/

theorem finite_eq_ok {k k' : K} : finite k = .ok k' ↔ k' = k ∧ Scalar.isFinite k = true := by
  unfold finite
  split_ifs with h
  · simp [h, eq_comm]
  · simp [h]

/-- A linear form is made exactly of finite numbers. -/
theorem ofCoefficients_eq_ok {cs : Coefficients K} {k : K} {e : Expression K} :
    ofCoefficients cs k = .ok e ↔
      e = .linear cs k ∧ cs.AreFinite ∧ Scalar.isFinite k = true := by
  unfold ofCoefficients
  by_cases hk : Scalar.isFinite k = true
  · simp only [hk, Bool.not_true, Bool.false_eq_true, ↓reduceIte, and_true]
    cases hf : List.find? (fun entry => !Scalar.isFinite entry.2) cs with
    | none =>
      have hall : cs.AreFinite := by simpa [Coefficients.AreFinite] using hf
      simp only [Except.ok.injEq]
      exact ⟨fun h => ⟨h.symm, hall⟩, fun h => h.1.symm⟩
    | some entry =>
      have hbad : Scalar.isFinite entry.2 = false := by simpa using List.find?_some hf
      have hmem := List.mem_of_find?_eq_some hf
      refine ⟨nofun, fun h => ?_⟩
      rw [h.2 entry hmem] at hbad
      cases hbad
  · simp [hk]

/-- A linear form that is not made is refused for a number that is not finite. -/
theorem ofCoefficients_of_not {cs : Coefficients K} {k : K}
    (h : ¬(cs.AreFinite ∧ Scalar.isFinite k = true)) :
    ∃ v, ofCoefficients cs k = .error (.notFinite v) := by
  cases hr : ofCoefficients cs k with
  | ok e => exact absurd (ofCoefficients_eq_ok.mp hr).2 h
  | error x =>
    unfold ofCoefficients at hr
    split at hr
    · cases hr
      exact ⟨_, rfl⟩
    · split at hr
      · cases hr
        exact ⟨_, rfl⟩
      · cases hr

theorem keeps_ofCoefficients {cs : Coefficients K} (k : K) (hn : cs.keys.Nodup) :
    Keeps (ofCoefficients cs k) cs.keys := by
  intro e he
  obtain ⟨rfl, hcs, hk⟩ := ofCoefficients_eq_ok.mp he
  exact ⟨⟨hcs, hk, hn⟩, List.Subset.refl _⟩

theorem keeps_ofScalar (k : K) : Keeps (ofScalar k) [] := keeps_ofCoefficients k List.nodup_nil

section Units

variable [Scalar.LawfulUnits K]

theorem isSound_variable (x : Variable K) : (Expression.variable x).IsSound where
  finite := by simp [Coefficients.AreFinite, coefficients, Scalar.LawfulUnits.isFinite_one]
  finite_constant := Scalar.LawfulUnits.isFinite_zero
  nodup := List.nodup_singleton _

theorem isSound_empty : (empty : Expression K).IsSound where
  finite := by simp [Coefficients.AreFinite, empty, coefficients]
  finite_constant := Scalar.LawfulUnits.isFinite_zero
  nodup := List.nodup_nil

theorem keeps_ofTerm (name : VariableName) (c : K) : Keeps (ofTerm name c) [name] := by
  refine Keeps.bind fun c' hc => ?_
  obtain ⟨rfl, hf⟩ := finite_eq_ok.mp hc
  refine Keeps.ok ⟨?_, Scalar.LawfulUnits.isFinite_zero, List.nodup_singleton _⟩
    (List.Subset.refl _)
  simpa [Coefficients.AreFinite, coefficients] using hf

theorem keeps_ofTermOrEmpty (name : VariableName) (c : K) :
    Keeps (ofTermOrEmpty name c) [name] := by
  unfold ofTermOrEmpty
  split_ifs
  · exact Keeps.ok isSound_empty (List.nil_subset _)
  · exact keeps_ofTerm name c

/-! ### Operations -/

theorem keeps_mapNumbers (f : K → K) : ∀ {e : Expression K}, e.IsSound →
    Keeps (e.mapNumbers f) e.names
  | .variable _, _ => keeps_ofTermOrEmpty _ _
  | .term _ _, _ => keeps_ofTermOrEmpty _ _
  | .linear cs k, h => by
    have hn : (cs.mapValues f).keys.Nodup := by
      rw [Entries.keys_mapValues]
      exact h.nodup
    exact (keeps_ofCoefficients _ hn).mono (by rw [Entries.keys_mapValues]; exact fun _ => id)

theorem keeps_neg {e : Expression K} (h : e.IsSound) : Keeps e.neg e.names := keeps_mapNumbers _ h

omit [Scalar.LawfulUnits K] in
/-- Merging brings in the names of what is added, each in one place. -/
theorem mergeInto_keys (f : K → K) : ∀ (added start : Coefficients K),
    (∀ name, name ∈ (mergeInto f start added).keys ↔ name ∈ start.keys ∨ name ∈ added.keys) ∧
      (start.keys.Nodup → (mergeInto f start added).keys.Nodup)
  | [], start => by simp [mergeInto]
  | (n, c) :: added, start => by
    obtain ⟨hmem, hnodup⟩ := mergeInto_keys f added
      (start.put n ((start.find? n).getD Scalar.zero + f c))
    refine ⟨fun name => (hmem name).trans ?_, fun hs => hnodup (Entries.nodup_keys_put hs)⟩
    rw [Entries.mem_keys_put, Entries.keys_cons, List.mem_cons]
    tauto

omit [Scalar.LawfulUnits K] in
theorem mergeInto_keys_subset (f : K → K) (start added : Coefficients K) :
    (mergeInto f start added).keys ⊆ start.keys ++ added.keys := fun name hname =>
  List.mem_append.mpr (((mergeInto_keys f added start).1 name).mp hname)

theorem keeps_combine (sign : K) {l r : Expression K} (hl : l.IsSound) :
    Keeps (combine sign l r) (l.names ++ r.names) := by
  have hmerge : Keeps (ofCoefficients (mergeInto (sign * ·) l.coefficients r.coefficients)
      (l.constant + sign * r.constant)) (l.names ++ r.names) :=
    (keeps_ofCoefficients _ ((mergeInto_keys _ _ _).2 hl.nodup)).mono (mergeInto_keys_subset _ _ _)
  -- two single terms of one name stay a single term, two of different names stand side by side
  have hterms : ∀ (m n : VariableName) (a b : K),
      Keeps (if m = n then ofTermOrEmpty m (a + sign * b)
        else ofCoefficients [(m, a), (n, sign * b)] Scalar.zero) ([m] ++ [n]) := by
    intro m n a b
    split_ifs with hmn
    · exact (keeps_ofTermOrEmpty _ _).mono (by simp)
    · exact keeps_ofCoefficients _ (by simpa using hmn)
  match l, r with
  | .linear .., _ | .variable _, .linear .. | .term .., .linear .. => exact hmerge
  | .variable _, .variable _ | .variable _, .term .. => exact hterms _ _ _ _
  | .term .., .variable _ | .term .., .term .. => exact hterms _ _ _ _

omit [Scalar.LawfulUnits K] in
theorem keeps_shift {e : Expression K} (h : e.IsSound) (k : K) : Keeps (e.shift k) e.names :=
  keeps_ofCoefficients _ h.nodup

omit [Scalar.LawfulUnits K] in
theorem keeps_addScalar {e : Expression K} (h : e.IsSound) (k : K) :
    Keeps (e.addScalar k) e.names :=
  Keeps.bind fun _ _ => keeps_shift h _

omit [Scalar.LawfulUnits K] in
theorem keeps_subScalar {e : Expression K} (h : e.IsSound) (k : K) :
    Keeps (e.subScalar k) e.names :=
  Keeps.bind fun _ _ => keeps_shift h _

theorem keeps_scalarSub {e : Expression K} (h : e.IsSound) (k : K) :
    Keeps (scalarSub k e) e.names :=
  Keeps.bind fun _ _ => Keeps.bind fun negated hneg =>
    have ⟨hs, hn⟩ := keeps_neg h negated hneg
    (keeps_shift hs _).mono hn

theorem keeps_scale {e : Expression K} (h : e.IsSound) (k : K) : Keeps (e.scale k) e.names := by
  refine Keeps.bind fun k _ => ?_
  split_ifs
  · exact Keeps.ok isSound_empty (List.nil_subset _)
  · exact keeps_mapNumbers _ h

theorem keeps_divide {e : Expression K} (h : e.IsSound) (k : K) : Keeps (e.divide k) e.names := by
  refine Keeps.bind fun k _ => ?_
  split_ifs
  · exact Keeps.error _
  · exact keeps_mapNumbers _ h

omit [Scalar.LawfulUnits K] in
/-- The running sum's names are those of the items, each in one place. -/
theorem sum_keys : ∀ (items : List (Expression K)) (s : Sum K), s.coefficients.keys.Nodup →
    (items.foldl Sum.plus s).coefficients.keys.Nodup ∧
      (items.foldl Sum.plus s).coefficients.keys ⊆ s.coefficients.keys ++ items.flatMap names
  | [], s, hs => by simpa using hs
  | e :: items, s, hs => by
    obtain ⟨hnodup, hsub⟩ := sum_keys items (s.plus e) ((mergeInto_keys _ _ _).2 hs)
    refine ⟨hnodup, fun name hname => ?_⟩
    have hplus := mergeInto_keys_subset id s.coefficients e.coefficients
    rcases List.mem_append.mp (hsub hname) with h | h
    · have := hplus h
      simp only [List.mem_append, List.flatMap_cons] at this ⊢
      exact this.imp_right .inl
    · simp only [List.mem_append, List.flatMap_cons]
      exact .inr (.inr h)

omit [Scalar.LawfulUnits K] in
theorem keeps_sum (items : List (Expression K)) : Keeps (sum items) (items.flatMap names) := by
  obtain ⟨hnodup, hsub⟩ := sum_keys items ⟨[], Scalar.zero⟩ List.nodup_nil
  exact (keeps_ofCoefficients _ hnodup).mono (by simpa using hsub)

theorem keeps_average (items : List (Expression K)) :
    Keeps (average items) (items.flatMap names) := by
  unfold average
  split_ifs
  · exact Keeps.error _
  · refine Keeps.bind fun total htotal => ?_
    have ⟨hs, hn⟩ := keeps_sum items total htotal
    exact (keeps_divide hs _).mono hn

end Units
end Expression
end LinModel
