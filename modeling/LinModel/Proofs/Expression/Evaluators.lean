import LinModel.Proofs.Compiling.Lowerable
import LinModel.Proofs.Dense
import LinModel.Proofs.Solving.Program

/-!
# Three ways to evaluate an expression

An expression is evaluated name by name at an assignment, as a row at the vector of an order, and
as a form over the handles of a program. Each reads one thing per name, in the order of the terms:
a value, a column, a handle. Where all names have one, the three give the sum of the terms and the
constant (`evaluateAt_eq_ok`, `DenseForm.ofExpression_eq_ok`, `lowerExpression_eq_ok`); where a name
lacks it, they fail with such a name.

Key theorems: `Expression.evaluateAt_eq_ok`, `Expression.evaluateAt_fails`,
`DenseForm.ofExpression_eq_ok`, `DenseForm.ofExpression_fails`, `lowerExpression_eq_ok`,
`lowerExpression_fails`, `Expression.evaluators_agree`.
-/
namespace LinModel

open Extended

variable {K ν : Type} [Scalar K]

/-! ### At an assignment -/

namespace Expression

theorem foldlM_read {ε : Type} {read : VariableName → Except ε K} {x : VariableName → K} :
    ∀ {cs : Coefficients K} {total : K}, (∀ name ∈ cs.keys, read name = .ok (x name)) →
    cs.foldlM (fun total (name, c) => do return total + c * (← read name)) total
      = .ok (cs.foldl (fun total (name, c) => total + c * x name) total)
  | [], _, _ => rfl
  | (name, c) :: cs, total, h => by
    obtain ⟨hname, hcs⟩ := List.forall_mem_cons.mp h
    rw [List.foldlM_cons, List.foldl_cons, ← foldlM_read hcs]
    simp only [hname]
    rfl

section EvaluateAt

variable {e : Expression K} {values : Entries String K}

theorem evaluateAt_eq_ok {x : VariableName → K}
    (h : ∀ name ∈ e.names, values.find? name.text = some (x name)) :
    e.evaluateAt values = .ok (e.evaluate x) := by
  have hread : ∀ name ∈ e.coefficients.keys,
      evaluateWith.read (.ok : K → Except MissingValue K) .error values name = .ok (x name) := by
    intro name hname
    unfold evaluateWith.read
    rw [h name hname]
  rw [evaluate_eq_foldl]
  exact foldlM_read hread

theorem evaluateAt_fails (h : ∃ name ∈ e.names, values.find? name.text = none) :
    ∃ name ∈ e.names, values.find? name.text = none ∧ e.evaluateAt values = .error ⟨name⟩ := by
  obtain ⟨name, hname, hnone⟩ := h
  obtain ⟨entry, hentry, rfl⟩ := List.mem_map.mp hname
  have hfails : ∃ entry ∈ e.coefficients, values.find? entry.1.text = none ∧
      e.evaluateAt values = .error ⟨entry.1⟩ := by
    refine foldlM_fails (fun total entry hbad => ?_) (fun total entry hok => ?_)
      ⟨entry, hentry, hnone⟩
    · unfold evaluateWith.read
      simp only [hbad]
      rfl
    · obtain ⟨value, hvalue⟩ := Option.ne_none_iff_exists'.mp hok
      unfold evaluateWith.read
      simp only [hvalue]
      exact ⟨_, rfl⟩
  obtain ⟨entry, hentry, hnone, hfails⟩ := hfails
  exact ⟨entry.1, List.mem_map_of_mem hentry, hnone, hfails⟩

end EvaluateAt
end Expression

/-! ### At a vector -/

namespace DenseForm

/-- The row of a general form has its value at the vector of a point. -/
theorem ofExpression_eq_ok {order : List VariableName} {e : Expression Extended} (h : e.IsSound)
    (hform : e.term? = none) (horder : e.names ⊆ order) :
    ∃ f, ofExpression (order.map (·.text)) e = .ok f ∧ ∀ v : Point,
      f.valueAt (order.map fun name => rational (v name)) = rational (e.exactAt v) := by
  cases e with
  | «variable» | term => cases hform
  | linear cs k =>
    obtain ⟨q, rfl⟩ := isFinite_iff.mp h.finite_constant
    have hover : cs.AreOver order := ⟨h.finite, horder, h.nodup⟩
    obtain ⟨row, hrow, hvalue⟩ := denseRow_eq_ok hover
    refine ⟨⟨row, rational q⟩, by rw [ofExpression, hrow]; rfl, fun v => ?_⟩
    rw [valueAt, hvalue, Coefficients.activityAt_eq v hover.finite, rational_add,
      Expression.exactAt_linear, toRat_rational]

theorem ofExpression_fails {order : List VariableName} {e : Expression K}
    (hform : e.term? = none) (h : ∃ name ∈ e.names, name ∉ order) :
    ∃ name ∈ e.names, name ∉ order ∧
      ofExpression (order.map (·.text)) e = .error (.notInOrder name.text) := by
  cases e with
  | «variable» | term => cases hform
  | linear cs k =>
    obtain ⟨name, hname, hout⟩ := h
    obtain ⟨entry, hentry, rfl⟩ := List.mem_map.mp hname
    have hfails : ∃ entry ∈ cs.texts, entry.1 ∉ order.map (·.text) ∧ _ :=
      denseRow_fails ⟨_, List.mem_map_of_mem hentry, mt text_mem_map_iff.mp hout⟩
    obtain ⟨text, htext, hmissing, hrow⟩ := hfails
    obtain ⟨entry, hentry, rfl⟩ := List.mem_map.mp htext
    refine ⟨entry.1, List.mem_map_of_mem hentry, mt text_mem_map_iff.mpr hmissing, ?_⟩
    rw [ofExpression, hrow]
    rfl

end DenseForm

/-! ### Over handles -/

section Handles

variable {handle? : String → Option ν}

/-- The form of an expression has its value where the handles have those of their names. -/
theorem lowerExpression_eq_ok {e : Expression Extended} (h : e.IsSound)
    (hn : ∀ name ∈ e.names, ∃ h, handle? name.text = some h) :
    ∃ f, lowerExpression handle? e = .ok f ∧
      ∀ a v, Agree handle? e.names a v → f.HasValue a (e.exactAt v) := by
  cases e with
  | «variable» x =>
    obtain ⟨handle, hhandle⟩ := hn x.name List.mem_cons_self
    refine ⟨.handle handle, by simp only [lowerExpression, lowerExpression.handleOf, hhandle],
      fun a v hagree => ?_⟩
    obtain ⟨handle', hhandle', ha⟩ := hagree x.name List.mem_cons_self
    cases hhandle.symm.trans hhandle'
    rw [Expression.exactAt_variable, ← ha]
    exact Form.hasValue_handle handle
  | term name c =>
    obtain ⟨q, rfl⟩ := Coefficients.AreFinite.head h.finite
    obtain ⟨handle, hhandle⟩ := hn name List.mem_cons_self
    refine ⟨.product (.constant (rational q)) (.handle handle), ?_, fun a v hagree => ?_⟩
    · simp only [lowerExpression, lowerExpression.handleOf, hhandle]
      rfl
    · obtain ⟨handle', hhandle', ha⟩ := hagree name List.mem_cons_self
      cases hhandle.symm.trans hhandle'
      rw [Expression.exactAt_term, ← ha]
      exact Form.hasValue_product q handle
  | linear cs k =>
    obtain ⟨q, rfl⟩ := isFinite_iff.mp h.finite_constant
    have hover : cs.AreOver cs.keys := ⟨h.finite, List.Subset.refl _, h.nodup⟩
    exact lowerCoefficients_eq_ok hn hover q

theorem lowerExpression_fails {e : Expression K}
    (h : ∃ name ∈ e.names, handle? name.text = none) :
    ∃ name ∈ e.names, handle? name.text = none ∧
      lowerExpression handle? e = .error ⟨name.text⟩ := by
  cases e with
  | «variable» x =>
    obtain ⟨name, hname, hnone⟩ := h
    cases List.mem_singleton.mp hname
    refine ⟨x.name, hname, hnone, ?_⟩
    simp only [lowerExpression, lowerExpression.handleOf, hnone]
  | term name c =>
    obtain ⟨name, hname, hnone⟩ := h
    cases List.mem_singleton.mp hname
    refine ⟨_, hname, hnone, ?_⟩
    simp only [lowerExpression, lowerExpression.handleOf, hnone]
    rfl
  | linear cs k =>
    have hmissing : ∃ name ∈ cs.keys, handle? name.text = none := h
    obtain ⟨name, hname, hnone, hterms⟩ := lowerTerms_fails hmissing
    refine ⟨name, hname, hnone, ?_⟩
    rw [lowerExpression, lowerCoefficients, hterms]
    rfl

end Handles

/-! ### All three -/

namespace Expression

/-- **The three evaluators agree.** Where an order of names contains those of a general form, and
every name of the order has a value, evaluating at these values, the form's row at their vector,
and its form over any handles that have these values all give the sum of the terms and the
constant. Where a name has no value, no column or no handle, the one that asks for it fails, and
says so of such a name. -/
theorem evaluators_agree {e : Expression Extended} (h : e.IsSound) (hform : e.term? = none) :
    (∀ (order : List VariableName) (v : Point), e.names ⊆ order →
      (∀ values : Entries String Extended,
        (∀ name ∈ order, values.find? name.text = some (rational (v name))) →
        e.evaluateAt values = .ok (rational (e.exactAt v))) ∧
      (∃ f, DenseForm.ofExpression (order.map (·.text)) e = .ok f ∧
        f.valueAt (order.map fun name => rational (v name)) = rational (e.exactAt v)) ∧
      ∀ (handle? : String → Option ν) (a : ν → ℚ), Agree handle? e.names a v →
        ∃ f, lowerExpression handle? e = .ok f ∧ f.HasValue a (e.exactAt v)) ∧
    (∀ values : Entries String Extended, (∃ name ∈ e.names, values.find? name.text = none) →
      ∃ name ∈ e.names, values.find? name.text = none ∧ e.evaluateAt values = .error ⟨name⟩) ∧
    (∀ order : List VariableName, (∃ name ∈ e.names, name ∉ order) →
      ∃ name ∈ e.names, name ∉ order ∧
        DenseForm.ofExpression (order.map (·.text)) e = .error (.notInOrder name.text)) ∧
    ∀ handle? : String → Option ν, (∃ name ∈ e.names, handle? name.text = none) →
      ∃ name ∈ e.names, handle? name.text = none ∧
        lowerExpression handle? e = .error ⟨name.text⟩ := by
  refine ⟨fun order v horder => ⟨fun values hvalues => ?_, ?_, fun handle? a hagree => ?_⟩,
    fun values => evaluateAt_fails, fun order => DenseForm.ofExpression_fails hform,
    fun handle? => lowerExpression_fails⟩
  · rw [evaluateAt_eq_ok fun name hname => hvalues name (horder hname)]
    exact congrArg Except.ok (valueAt_eq h v)
  · obtain ⟨f, hf, hvalue⟩ := DenseForm.ofExpression_eq_ok h hform horder
    exact ⟨f, hf, hvalue v⟩
  · obtain ⟨f, hf, hvalue⟩ := lowerExpression_eq_ok h fun name hname =>
      (hagree name hname).imp fun _ => And.left
    exact ⟨f, hf, hvalue a v hagree⟩

def slanted : Expression Extended :=
  .linear [(.automatic 1, rational 2), (.automatic 2, rational (-3))] (rational 5)

def uneven : Point := fun name => if name = .automatic 1 then 4 else 1

/-- There, the three evaluators give 10, and without a value for `x1` the first one fails. -/
theorem slanted_evaluates : slanted.evaluateAt [("x1", rational 4), ("x2", rational 1)]
      = .ok (rational 10) ∧
    (∃ f, DenseForm.ofExpression ["x2", "x1"] slanted = .ok f ∧
      f.valueAt [rational 1, rational 4] = rational 10) ∧
    (∃ f, lowerExpression VariableName.ofText? slanted = .ok f ∧ f.HasValue uneven 10) ∧
    ∃ name ∈ slanted.names, slanted.evaluateAt [("x2", rational 1)] = .error ⟨name⟩ := by
  have hsound : slanted.IsSound := by
    refine ⟨?_, rfl, ?_⟩
    · simp [slanted, Coefficients.AreFinite, coefficients]
    · decide
  obtain ⟨hagree, hfails, -, -⟩ := @evaluators_agree VariableName _ hsound rfl
  have hnames : slanted.names ⊆ [.automatic 2, .automatic 1] := by decide
  obtain ⟨hevaluate, hrow, hform⟩ := hagree [.automatic 2, .automatic 1] uneven hnames
  have hvalue : slanted.exactAt uneven = 10 := by decide +kernel
  rw [hvalue] at hevaluate hrow hform
  refine ⟨hevaluate _ ?_, hrow, hform _ uneven fun name _ => ⟨name, by simp, rfl⟩, ?_⟩
  · decide +kernel
  · obtain ⟨name, hname, -, h⟩ :=
      hfails [("x2", rational 1)] ⟨.automatic 1, by decide, by decide +kernel⟩
    exact ⟨name, hname, h⟩

end Expression
end LinModel
