import LinModel.Proofs.Solving.Reports

/-!
# Which violated constraints a report lists

A report lists the violated constraints under their labels: the name of a constraint, or its number
for one without. The list goes by labels, so of the violated constraints that share one, only the
last is listed (`Builder.listed_violations`). Every violated constraint has an entry of its own,
with its own violation, if and only if the labels of the violated constraints are all different; two
constraints of one block have the same label, and if both are violated, one is left out
(`Builder.block_listed_once`).

Key definitions: `CompiledConstraint.violationAt`, `Problem.violatedAt`, `reportLabel`.
Key theorems: `Violations.constraints_measured`, `Builder.listed_violations`.
-/
namespace LinModel

open Extended

variable {L : Type}

/-- How far the terms are out of the range. -/
def CompiledConstraint.violationAt (c : CompiledConstraint Extended L) (v : Point) : Extended :=
  rangeViolation (c.coefficients.activityAt v) c.lower c.upper

/-- The violated constraints, in order, each with its position. -/
def Problem.violatedAt (p : Problem Extended L) (t : Extended) (v : Point) :
    List (CompiledConstraint Extended L × ℕ) :=
  p.constraints.zipIdx.filter fun c => Scalar.lt t (c.1.violationAt v)

/-- The label of a constraint in a report: its name, or one by its position. -/
def reportLabel (byIndex : ℕ → L) (c : CompiledConstraint Extended L × ℕ) : L :=
  c.1.label.getD (byIndex c.2)

theorem Problem.length_violatedAt (p : Problem Extended L) (t : Extended) (v : Point) :
    (p.violatedAt t v).length = p.constraints.countP fun c => Scalar.lt t (c.violationAt v) := by
  have hplaces : p.constraints.zipIdx.countP (fun c => Scalar.lt t (c.1.violationAt v))
      = (p.constraints.zipIdx.map Prod.fst).countP fun c => Scalar.lt t (c.violationAt v) := by
    rw [List.countP_map]
    rfl
  rw [violatedAt, ← List.countP_eq_length_filter, hplaces, List.zipIdx_map_fst]

/-- **A report lists the violated constraints** under their labels. -/
theorem Violations.constraints_measured [BEq L] (byIndex : ℕ → L) {p : Problem Extended L}
    {d : DenseModel Extended} (hd : d.Measures p) (t : Extended) (v : Point) :
    (ofAssignment byIndex p d (p.vectorAt v) t).constraints
      = .ofList ((p.violatedAt t v).map fun c => (reportLabel byIndex c, c.1.violationAt v)) := by
  have hlabels : labels byIndex p.constraints = p.constraints.zipIdx.map (reportLabel byIndex) :=
    rfl
  have hamounts : d.constraintViolation (p.vectorAt v)
      = p.constraints.zipIdx.map fun c => c.1.violationAt v := by
    rw [hd.constraints]
    conv_lhs => rw [← List.zipIdx_map_fst 0 p.constraints]
    rw [List.map_map]
    rfl
  have hlisted : (ofAssignment byIndex p d (p.vectorAt v) t).constraints
      = beyond (labels byIndex p.constraints) (d.constraintViolation (p.vectorAt v)) t := rfl
  rw [hlisted, hlabels, hamounts, beyond, List.zip_map', List.filter_map]
  rfl

namespace Builder

variable {b : Builder Extended L} {settings : Settings Extended} {m : CompiledModel Extended L}

/-- **Which violated constraints a report lists.** Let a model be built, and let a solution of it
that is optimal or feasible have a finite value for every variable. Verifying it returns a report.
Under every label it has the violation of the last violated constraint with this label, and nothing
if there is none. It has as many entries as constraints are violated by more than the tolerance if
and only if these have different labels, and then it has an entry for each of them, in order, with
its own violation. -/
theorem listed_violations [BEq L] [LawfulBEq L] (byIndex : ℕ → L) (hb : b.Reachable)
    (hm : b.build settings = .ok m) {s : Solution Extended L} (hmodel : s.model = some m)
    (hstatus : s.status = .optimal ∨ s.status = .feasible) {v : Point}
    (hvalues : ∀ name ∈ m.names, s.values.find? name.text = some (rational (v name)))
    (t : Extended) :
    ∃ r, s.verify byIndex t = .ok r ∧
      (∀ label, r.constraints.find? label = ((m.violatedAt t v).reverse.find? fun c =>
        reportLabel byIndex c == label).map fun c => c.1.violationAt v) ∧
      (r.constraints.length = (m.constraints.countP fun c => Scalar.lt t (c.violationAt v)) ↔
        ((m.violatedAt t v).map (reportLabel byIndex)).Nodup) ∧
      (((m.violatedAt t v).map (reportLabel byIndex)).Nodup → r.constraints
        = (m.violatedAt t v).map fun c => (reportLabel byIndex c, c.1.violationAt v)) := by
  obtain ⟨-, hs⟩ := isSound_of_build hb.isSound hm
  obtain ⟨d, hd, horder, hmeasures⟩ := DenseModel.ofProblem_eq_ok hs
  have hsolution : s.status.hasSolution = true := by
    rcases hstatus with h | h <;> rw [h] <;> rfl
  have hlisted := Violations.constraints_measured byIndex hmeasures t v
  have hkeys : Entries.keys ((m.violatedAt t v).map fun c =>
      (reportLabel byIndex c, c.1.violationAt v))
      = (m.violatedAt t v).map (reportLabel byIndex) := by
    rw [Entries.keys, List.map_map]
    rfl
  have hverify : s.verify byIndex t = .ok (.ofAssignment byIndex m.toProblem d (m.vectorAt v) t) :=
    Solution.verify_of_find byIndex hd horder hmodel hsolution hvalues t
  refine ⟨_, hverify, fun label => ?_, ?_, fun hnodup => ?_⟩
  · rw [hlisted, Entries.find?_ofList, ← List.map_reverse, Entries.find?_map]
  · rw [hlisted, ← Problem.length_violatedAt, ← hkeys, ← Entries.length_ofList_eq_iff,
      List.length_map]
  · rw [hlisted, Entries.ofList_of_nodup (hkeys ▸ hnodup)]

/-- A depot that is closed and has no crates but a stock of twelve. -/
def overstocked : Point := fun name => if name = .automatic 3 then 12 else 0

/-- Of the depot's four constraints three are violated there, each under a label of its own: the
report lists these with their violations, the one without a name under its number. -/
theorem depot_listed : ∃ m r, depot.build ⟨some .highs, rational 0⟩ = .ok m ∧
    (solutionAt (fun name => rational (overstocked name)) m).verify byNumber
      (rational 0) = .ok r ∧
    r.constraints = [("room", rational 4), ("balance", rational 12), ("#2", rational 1)] := by
  have hrun : ((verified depot fun name => rational (overstocked name)).map fun r =>
      (r.1.violatedAt (rational 0) overstocked).map fun c =>
        (reportLabel byNumber c, c.1.violationAt overstocked))
      = some [("room", rational 4), ("balance", rational 12), ("#2", rational 1)] := by
    decide +kernel
  obtain ⟨⟨m, r⟩, hverified, hlist⟩ := Option.map_eq_some_iff.mp hrun
  obtain ⟨hm, hr⟩ := of_verified_eq_some hverified
  have hlabels : (m.violatedAt (rational 0) overstocked).map (reportLabel byNumber)
      = ["room", "balance", "#2"] := by
    simpa [Function.comp_def] using congrArg (List.map Prod.fst) hlist
  obtain ⟨r', hr', -, -, hlisted⟩ := listed_violations byNumber (v := overstocked)
    depot_reachable hm rfl (.inl rfl)
    (find?_solutionAt _ (isSound_of_build depot_reachable.isSound hm).2) (rational 0)
  cases hr.symm.trans hr'
  refine ⟨m, r, hm, hr, ?_⟩
  rw [hlisted (hlabels ▸ by decide)]
  exact hlist

/-- One variable, and `x1 ≤ 1` and `x1 ≤ 2` in a block named `cap`. -/
def capped : Builder Extended String :=
  let x : Operand Extended := .expression (.term (.automatic 1) (rational 1))
  let opened := { after (declare .numeric none none none) empty with block := some "cap" }
  let related := after (relate x (.number (rational 2)) .le none)
    (after (relate x (.number (rational 1)) .le none) opened)
  after (setObjective x .min) { related with block := none }

theorem capped_reachable : capped.Reachable := by
  have hterm : (Operand.expression (.term (.automatic 1) (rational 1))).IsSound :=
    .expression (Expression.isSound_term _ 1)
  have hopened : Reaches (empty : Builder Extended String) _ :=
    .step (.step (.refl _) (.declare _ .numeric none none none)) (.block _ (some "cap"))
  exact .step (.step (.step (.step hopened (.relate _ hterm (.number _) _ _))
    (.relate _ hterm (.number _) _ _)) (.block _ none)) (.setObjective _ hterm _)

/-- The value 5 violates both constraints, but the report lists one, with the smaller violation. -/
theorem block_listed_once : capped.Reachable ∧ ∃ m r,
    capped.build ⟨some .highs, rational 0⟩ = .ok m ∧
    (solutionAt (fun _ => rational 5) m).verify byNumber (rational 0) = .ok r ∧
    (m.constraints.map fun c => c.violationAt fun _ => 5) = [rational 4, rational 3] ∧
    r.constraints = [("cap", rational 3)] := by
  have hrun : ((verified capped fun _ => rational 5).map fun r =>
      (r.1.constraints.map fun c => c.violationAt fun _ => 5, r.2.constraints))
      = some ([rational 4, rational 3], [("cap", rational 3)]) := by
    decide +kernel
  obtain ⟨⟨m, r⟩, hverified, hresult⟩ := Option.map_eq_some_iff.mp hrun
  obtain ⟨hm, hr⟩ := of_verified_eq_some hverified
  obtain ⟨hviolations, hlisted⟩ := Prod.mk.inj hresult
  exact ⟨capped_reachable, m, r, hm, hr, hviolations, hlisted⟩

end Builder
end LinModel
