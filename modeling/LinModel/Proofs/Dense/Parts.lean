import Mathlib.Data.List.Forall2
import LinModel.Dense
import LinModel.Proofs.Expression.Sound

/-!
# What a dense form is made of

A problem has a dense form if and only if all its names have a column and all its numbers but
bounds are finite (`DenseModel.exists_ofProblem_iff`). The arrays are filled from the terms as they
are, and the functions are lowered from the linear forms of the terms
(`DenseModel.ofProblem_eq_ok_iff`).

Key definitions: `DenseModel.IsOf`.
Key theorems: `exists_denseRow_iff`, `DenseForm.ofTerms_eq_ok`, `DenseRange.ofConstraint_eq_ok`,
`DenseModel.ofProblem_eq_ok_iff`, `DenseModel.exists_ofProblem_iff`.
-/
namespace LinModel

/-! ### Columns -/

theorem mem_of_lastIndex? {order : List String} {name : String} {i : ℕ}
    (h : lastIndex? order name = some i) : order[i]? = some name := by
  obtain ⟨⟨s, j⟩, hfind, rfl⟩ := Option.map_eq_some_iff.mp h
  have hmem := List.mem_reverse.mp (List.mem_of_find?_eq_some hfind)
  have heq : s = name := by simpa using List.find?_some hfind
  rw [← heq]
  exact List.mem_zipIdx_iff_getElem?.mp hmem

theorem exists_lastIndex? {order : List String} {name : String} (h : name ∈ order) :
    ∃ i, lastIndex? order name = some i := by
  obtain ⟨i, hi⟩ := List.mem_iff_getElem?.mp h
  have hsome : ((order.zipIdx.reverse).find? (·.1 == name)).isSome = true := by
    rw [List.find?_isSome]
    exact ⟨(name, i), List.mem_reverse.mpr (List.mem_zipIdx_iff_getElem?.mpr hi), by simp⟩
  obtain ⟨entry, hentry⟩ := Option.isSome_iff_exists.mp hsome
  exact ⟨entry.2, by rw [lastIndex?, hentry]; rfl⟩

theorem lastIndex?_eq_none {order : List String} {name : String} (h : name ∉ order) :
    lastIndex? order name = none := by
  cases hi : lastIndex? order name with
  | none => rfl
  | some i => exact absurd (List.mem_of_getElem? (mem_of_lastIndex? hi)) h

/-- The texts of names are those of their members. -/
theorem text_mem_map_iff {names : List VariableName} {name : VariableName} :
    name.text ∈ names.map (·.text) ↔ name ∈ names := by
  rw [List.mem_map]
  constructor
  · rintro ⟨other, hother, htext⟩
    exact VariableName.eq_of_text_eq htext ▸ hother
  · exact fun h => ⟨name, h, rfl⟩

variable {K L : Type} [Scalar K]

/-- A row can be filled if every name has a column. -/
theorem exists_denseRow_iff {order : List String} {cs : List (String × K)} :
    (∃ row, denseRow order cs = .ok row) ↔ ∀ entry ∈ cs, entry.1 ∈ order := by
  unfold denseRow
  generalize (order.map fun _ => (Scalar.zero : K)) = start
  induction cs generalizing start with
  | nil => exact ⟨fun _ => nofun, fun _ => ⟨start, rfl⟩⟩
  | cons entry cs ih =>
    obtain ⟨name, c⟩ := entry
    rw [List.forall_mem_cons, List.foldlM_cons]
    by_cases hname : name ∈ order
    · obtain ⟨i, hi⟩ := exists_lastIndex? hname
      simp only [hi, ok_bind, hname, true_and]
      exact ih (start.modify i (· + c))
    · simp only [lastIndex?_eq_none hname, error_bind, hname, false_and, iff_false]
      nofun

/-- A row cannot be filled where a name has no column, and such a name is to blame. -/
theorem denseRow_fails {order : List String} {cs : List (String × K)}
    (h : ∃ entry ∈ cs, entry.1 ∉ order) :
    ∃ entry ∈ cs, entry.1 ∉ order ∧ denseRow order cs = .error (.notInOrder entry.1) := by
  refine foldlM_fails (fun row entry hname => ?_) (fun row entry hname => ?_) h
  · simp only [lastIndex?_eq_none hname]
  · obtain ⟨i, hi⟩ := exists_lastIndex? (not_not.mp hname)
    simp only [hi]
    exact ⟨_, rfl⟩

/-- A row of coefficients can be filled if their names are those of columns. -/
theorem exists_denseRow_texts_iff {names : List VariableName} {cs : Coefficients K} :
    (∃ row, denseRow (names.map (·.text)) cs.texts = .ok row) ↔ cs.keys ⊆ names := by
  rw [exists_denseRow_iff, Coefficients.texts, Entries.keys, List.forall_mem_map]
  simp only [text_mem_map_iff]
  exact List.forall_mem_map.symm

/-! ### Forms and ranges -/

theorem DenseForm.ofTerms_eq_ok {order : List String} {cs : Coefficients K} {k : K}
    {f : DenseForm K} :
    ofTerms order cs k = .ok f ↔ cs.AreFinite ∧ Scalar.isFinite k = true ∧
      denseRow order cs.texts = .ok f.row ∧ f.constant = k := by
  unfold ofTerms
  simp only [bind_eq_ok, mapError_eq_ok, Expression.ofCoefficients_eq_ok]
  constructor
  · rintro ⟨_, ⟨rfl, hcs, hk⟩, h⟩
    obtain ⟨row, hrow, h⟩ := bind_eq_ok.mp h
    cases h
    exact ⟨hcs, hk, hrow, rfl⟩
  · rintro ⟨hcs, hk, hrow, rfl⟩
    exact ⟨_, ⟨rfl, hcs, hk⟩, bind_eq_ok.mpr ⟨_, hrow, rfl⟩⟩

/-- Finite terms of columns are lowered, with a finite constant. -/
theorem DenseForm.exists_ofTerms_iff {names : List VariableName} {cs : Coefficients K} {k : K} :
    (∃ f, ofTerms (names.map (·.text)) cs k = .ok f) ↔
      cs.keys ⊆ names ∧ cs.AreFinite ∧ Scalar.isFinite k = true := by
  constructor
  · rintro ⟨f, hf⟩
    obtain ⟨hcs, hk, hrow, -⟩ := ofTerms_eq_ok.mp hf
    exact ⟨exists_denseRow_texts_iff.mp ⟨_, hrow⟩, hcs, hk⟩
  · rintro ⟨hnames, hcs, hk⟩
    obtain ⟨row, hrow⟩ := exists_denseRow_texts_iff.mpr hnames
    exact ⟨⟨row, k⟩, ofTerms_eq_ok.mpr ⟨hcs, hk, hrow, rfl⟩⟩

theorem DenseRange.ofConstraint_eq_ok {order : List String} {c : CompiledConstraint K L}
    {r : DenseRange K} :
    ofConstraint order c = .ok r ↔
      DenseForm.ofTerms order c.coefficients Scalar.zero = .ok r.form ∧
        r.lower = c.lower ∧ r.upper = c.upper := by
  unfold ofConstraint
  rw [bind_eq_ok]
  constructor
  · rintro ⟨f, hf, h⟩
    cases h
    exact ⟨hf, rfl, rfl⟩
  · rintro ⟨hf, hlower, hupper⟩
    refine ⟨_, hf, ?_⟩
    rw [← hlower, ← hupper]
    rfl

theorem DenseRange.exists_ofConstraint_iff [Scalar.LawfulUnits K] {names : List VariableName}
    {c : CompiledConstraint K L} :
    (∃ r, ofConstraint (names.map (·.text)) c = .ok r) ↔
      c.coefficients.keys ⊆ names ∧ c.coefficients.AreFinite := by
  unfold ofConstraint
  rw [exists_bind_pure_eq_ok_iff, DenseForm.exists_ofTerms_iff]
  simp only [Scalar.LawfulUnits.isFinite_zero, and_true]

/-! ### Whole problems -/

namespace DenseModel

/-- The arrays are those of a problem, and the functions are lowered from it. -/
structure IsOf (d : DenseModel K) (p : Problem K L) : Prop where
  order : d.order = p.names.map (·.text)
  rows : List.Forall₂ (fun c row => denseRow d.order c.coefficients.texts = .ok row)
    p.constraints d.rows
  lower : d.lower = p.constraints.map (·.lower)
  upper : d.upper = p.constraints.map (·.upper)
  objective : denseRow d.order p.objective.coefficients.texts = .ok d.objective
  offset : d.offset = p.objective.offset
  variableLower : d.variableLower = p.vars.map (·.lower)
  variableUpper : d.variableUpper = p.vars.map (·.upper)
  integerMask : d.integerMask = p.vars.map fun v =>
    if v.kind.isDiscrete then Scalar.one else Scalar.zero
  ranges : List.Forall₂ (fun c r => DenseRange.ofConstraint d.order c = .ok r)
    p.constraints d.ranges
  objectiveForm : DenseForm.ofTerms d.order p.objective.coefficients p.objective.offset
    = .ok d.objectiveForm

variable {p : Problem K L} {d : DenseModel K}

/-- **A dense form is made of the parts of its problem.** -/
theorem ofProblem_eq_ok_iff : ofProblem p = .ok d ↔ d.IsOf p := by
  unfold ofProblem
  simp only [bind_eq_ok, mapM_eq_ok]
  constructor
  · rintro ⟨rows, hrows, objective, hobjective, ranges, hranges, form, hform, h⟩
    cases h
    exact ⟨rfl, hrows, rfl, rfl, hobjective, rfl, rfl, rfl, rfl, hranges, hform⟩
  · rintro ⟨horder, hrows, hlower, hupper, hobjective, hoffset, hvlower, hvupper, hmask, hranges,
      hform⟩
    rw [horder] at hrows hobjective hranges hform
    refine ⟨_, hrows, _, hobjective, _, hranges, _, hform, ?_⟩
    rw [← horder, ← hlower, ← hupper, ← hoffset, ← hvlower, ← hvupper, ← hmask]
    rfl

/-- **A problem has a dense form** iff its names have columns and its numbers but bounds are
finite. -/
theorem exists_ofProblem_iff [Scalar.LawfulUnits K] : (∃ d, ofProblem p = .ok d) ↔
    (∀ c ∈ p.constraints, c.coefficients.keys ⊆ p.names ∧ c.coefficients.AreFinite) ∧
      p.objective.coefficients.keys ⊆ p.names ∧ p.objective.coefficients.AreFinite ∧
      Scalar.isFinite p.objective.offset = true := by
  unfold ofProblem
  refine Iff.trans (exists_bind_eq_ok_iff fun rows => exists_bind_eq_ok_iff fun objective =>
    exists_bind_eq_ok_iff fun ranges => exists_bind_pure_eq_ok_iff) ?_
  simp only [exists_mapM_eq_ok_iff, exists_denseRow_texts_iff, DenseRange.exists_ofConstraint_iff,
    DenseForm.exists_ofTerms_iff]
  constructor
  · rintro ⟨-, hknown, hconstraints, -, hfinite, hoffset⟩
    exact ⟨hconstraints, hknown, hfinite, hoffset⟩
  · rintro ⟨hconstraints, hknown, hfinite, hoffset⟩
    exact ⟨fun c hc => (hconstraints c hc).1, hknown, hconstraints, hknown, hfinite, hoffset⟩

end DenseModel
end LinModel
