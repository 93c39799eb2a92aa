import LinModel.Proofs.Compiling.Meaning
import LinModel.Proofs.Dense.Parts

/-!
# The dense form measures a problem

The rows of a dense problem have one column per variable. Filling a row puts each coefficient in
the column of its name, so the product of the row with the values of a point is the sum of the
terms there (`denseRow_eq_ok`): one more coefficient adds one more term (`rowAt_modify`). So the
dense form of a sound problem exists, and what it measures at the vector of a point is what the
constraints and the variables say of the point (`DenseModel.ofProblem_eq_ok`).

Key definitions: `exactDot`, `rowAt`, `Problem.vectorAt`, `DenseModel.Measures`.
Key theorems: `dot_eq_exactDot`, `rowAt_modify`, `denseRow_eq_ok`, `DenseModel.ofProblem_eq_ok`.
-/
namespace LinModel

open Extended

variable {L : Type}

/-! ### Columns -/

/-- The place of a name's text among texts is the place of the name. -/
theorem exists_column {names : List VariableName} {name : VariableName} (h : name ∈ names) :
    ∃ i, lastIndex? (names.map (·.text)) name.text = some i ∧ names[i]? = some name := by
  obtain ⟨i, hi⟩ := exists_lastIndex? (List.mem_map_of_mem (f := (·.text)) h)
  have hmap := mem_of_lastIndex? hi
  rw [List.getElem?_map] at hmap
  obtain ⟨n, hn, htext⟩ := Option.map_eq_some_iff.mp hmap
  rw [VariableName.eq_of_text_eq htext] at hn
  exact ⟨i, hi, hn⟩

/-! ### Rows -/

/-- The product of a row of numbers and a vector of rationals. -/
def exactDot (row : List Extended) (x : List ℚ) : ℚ :=
  (List.zipWith (fun c q => c.toRat * q) row x).sum

/-- All numbers of a row are finite. -/
def RowIsFinite (row : List Extended) : Prop := ∀ c ∈ row, Scalar.isFinite c = true

theorem foldl_dot : ∀ {row : List Extended} (x : List ℚ), RowIsFinite row → ∀ k : ℚ,
    (row.zip (x.map rational)).foldl (fun total (a, b) => total + a * b) (rational k)
      = rational (k + exactDot row x)
  | [], _, _, k => by simp [exactDot]
  | _ :: _, [], _, k => by simp [exactDot]
  | c :: row, q :: x, h, k => by
    obtain ⟨hc, hrow⟩ := List.forall_mem_cons.mp h
    obtain ⟨p, rfl⟩ := isFinite_iff.mp hc
    simp only [List.map_cons, List.zip_cons_cons, List.foldl_cons, rational_mul, rational_add]
    rw [foldl_dot x hrow, add_assoc]
    rfl

theorem dot_eq_exactDot {row : List Extended} (h : RowIsFinite row) (x : List ℚ) :
    Scalar.dot row (x.map rational) = rational (exactDot row x) := by
  have hdot := foldl_dot x h 0
  rwa [zero_add] at hdot

/-- The product of a row with the values of names at a point. -/
def rowAt (row : List Extended) (names : List VariableName) (v : Point) : ℚ :=
  (List.zipWith (fun c name => c.toRat * v name) row names).sum

theorem dot_eq_rowAt {row : List Extended} (h : RowIsFinite row) (names : List VariableName)
    (v : Point) :
    Scalar.dot row (names.map fun name => rational (v name)) = rational (rowAt row names v) := by
  have hdot := dot_eq_exactDot h (names.map v)
  rwa [List.map_map, exactDot, List.zipWith_map_right] at hdot

theorem rowAt_modify (v : Point) (q : ℚ) {name : VariableName} :
    ∀ {row : List Extended} {names : List VariableName} {i : ℕ}, RowIsFinite row →
      row.length = names.length → names[i]? = some name →
      RowIsFinite (row.modify i (· + rational q)) ∧
        rowAt (row.modify i (· + rational q)) names v = rowAt row names v + q * v name
  | [], [], i, _, _, hi => by simp at hi
  | c :: row, n :: names, 0, h, _, hi => by
    obtain ⟨hc, hrow⟩ := List.forall_mem_cons.mp h
    obtain ⟨p, rfl⟩ := isFinite_iff.mp hc
    have hn : n = name := by simpa using hi
    subst hn
    rw [List.modify_zero_cons, rational_add]
    refine ⟨List.forall_mem_cons.mpr ⟨rfl, hrow⟩, ?_⟩
    simp only [rowAt, List.zipWith_cons_cons, List.sum_cons, toRat_rational]
    ring
  | c :: row, n :: names, i + 1, h, hlen, hi => by
    obtain ⟨hc, hrow⟩ := List.forall_mem_cons.mp h
    obtain ⟨hfin, hsum⟩ := rowAt_modify v q hrow (Nat.succ.inj hlen)
      (by simpa using hi : names[i]? = some name)
    rw [List.modify_succ_cons]
    refine ⟨List.forall_mem_cons.mpr ⟨hc, hfin⟩, ?_⟩
    simp only [rowAt, List.zipWith_cons_cons, List.sum_cons] at hsum ⊢
    rw [hsum, add_assoc]

theorem rowAt_zeros (v : Point) : ∀ names : List VariableName,
    rowAt (names.map fun _ => rational 0) names v = 0
  | [] => rfl
  | name :: names => by
    have ih := rowAt_zeros v names
    simp only [rowAt] at ih ⊢
    rw [List.map_cons, List.zipWith_cons_cons, List.sum_cons, ih, toRat_rational, zero_mul,
      add_zero]

theorem foldlM_row {names : List VariableName} : ∀ {cs : Coefficients Extended}
    {row : List Extended}, cs.AreFinite → cs.keys ⊆ names → RowIsFinite row →
    row.length = names.length →
    ∃ row', (cs.texts.foldlM (fun row (name, c) =>
        match lastIndex? (names.map (·.text)) name with
        | some i => .ok (row.modify i (· + c))
        | none => .error (.notInOrder name)) row : Except (DenseError Extended) _) = .ok row' ∧
      RowIsFinite row' ∧ ∀ v, rowAt row' names v = rowAt row names v + cs.termsAt v
  | [], row, _, _, hrow, _ => ⟨row, rfl, hrow, fun v => by simp⟩
  | (name, c) :: cs, row, hcs, hn, hrow, hlen => by
    obtain ⟨q, rfl⟩ := hcs.head
    obtain ⟨hname, hrest⟩ := List.cons_subset.mp hn
    obtain ⟨i, hi, hplace⟩ := exists_column hname
    have hmod := fun v => rowAt_modify v q hrow hlen hplace
    obtain ⟨row', hrow', hfin, hsum⟩ := foldlM_row hcs.tail hrest (hmod 0).1
      (by rw [List.length_modify, hlen])
    refine ⟨row', ?_, hfin, fun v => ?_⟩
    · rw [← hrow', Coefficients.texts, List.map_cons, List.foldlM_cons]
      simp only [hi, ok_bind]
      rfl
    · rw [hsum, (hmod v).2, Coefficients.termsAt_cons, toRat_rational, add_assoc]

/-- **A row is the sum of its terms.** -/
theorem denseRow_eq_ok {names : List VariableName} {cs : Coefficients Extended}
    (h : cs.AreOver names) :
    ∃ row, denseRow (names.map (·.text)) cs.texts = .ok row ∧ ∀ v : Point,
      Scalar.dot row (names.map fun name => rational (v name)) = cs.activityAt v := by
  have hrow : RowIsFinite (names.map fun _ => rational 0) := by simp [RowIsFinite]
  obtain ⟨row, hrow, hfin, hsum⟩ := foldlM_row h.finite h.known hrow (List.length_map _)
  refine ⟨row, ?_, fun v => ?_⟩
  · rw [← hrow, denseRow, List.map_map]
    rfl
  · rw [dot_eq_rowAt hfin, hsum, rowAt_zeros, zero_add, Coefficients.activityAt_eq v h.finite]

/-! ### Problems -/

/-- The values of a point in the order of the variables. -/
def Problem.vectorAt (p : Problem Extended L) (v : Point) : List Extended :=
  p.names.map fun name => rational (v name)

/-- What a dense form measures is what constraints and variables say of every point. -/
structure DenseModel.Measures (d : DenseModel Extended) (p : Problem Extended L) : Prop where
  constraints : ∀ v, d.constraintViolation (p.vectorAt v)
    = p.constraints.map fun c => rangeViolation (c.coefficients.activityAt v) c.lower c.upper
  bounds : ∀ v, d.boundViolation (p.vectorAt v)
    = p.vars.map fun x => rangeViolation (rational (v x.name)) x.lower x.upper
  integrality : ∀ v, d.integralityViolation (p.vectorAt v)
    = p.vars.map fun x => Scalar.distanceToInteger (rational (v x.name))
        * if x.kind.isDiscrete then Scalar.one else Scalar.zero

/-- **A sound problem has a dense form that measures it.** -/
theorem DenseModel.ofProblem_eq_ok {p : Problem Extended L} (h : p.IsSound) :
    ∃ d, ofProblem p = .ok d ∧ d.order = p.names.map (·.text) ∧ d.Measures p := by
  obtain ⟨d, hd⟩ := exists_ofProblem_iff.mpr
    ⟨fun c hc => ⟨(h.constraints c hc).known, (h.constraints c hc).finite⟩, h.objective.known,
      h.objective.finite, h.offset⟩
  have hof := ofProblem_eq_ok_iff.mp hd
  refine ⟨d, hd, hof.order, ?_⟩
  constructor
  · intro v
    refine (map_eq_of_forall₂ ((List.forall₂_and_left _ _).mpr ⟨h.constraints, hof.ranges⟩) ?_).symm
    rintro c r ⟨hc, hr⟩
    obtain ⟨hform, hlower, hupper⟩ := DenseRange.ofConstraint_eq_ok.mp hr
    obtain ⟨-, -, hrow, hconstant⟩ := DenseForm.ofTerms_eq_ok.mp hform
    obtain ⟨row, hrow', hvalue⟩ := denseRow_eq_ok hc
    rw [hof.order] at hrow
    cases hrow.symm.trans hrow'
    have hactivity : r.form.valueAt (p.vectorAt v) = c.coefficients.activityAt v := by
      rw [DenseForm.valueAt, hconstant, Problem.vectorAt, hvalue,
        Coefficients.activityAt_eq v hc.finite, scalar_zero, rational_add, add_zero]
    rw [DenseRange.violationAt, hactivity, hlower, hupper]
  · intro v
    rw [boundViolation, hof.variableLower, hof.variableUpper]
    simp only [Problem.vectorAt, Problem.names, List.map_map, List.zip_map']
    rfl
  · intro v
    rw [integralityViolation, hof.integerMask]
    simp only [Problem.vectorAt, Problem.names, List.map_map, List.zip_map']
    rfl

end LinModel
