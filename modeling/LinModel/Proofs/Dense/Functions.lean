import LinModel.Proofs.Solving.Violations

/-!
# The arrays and the functions of a dense model

A dense model has its numbers twice: in arrays, and in functions that are lowered once more from
the terms of the problem. If a problem has different names, no term twice and numbers as its bounds,
both describe it at every finite vector (`DenseModel.describes_of_ofProblem`).

Different names have columns of their own, so a row has the coefficient of a name in its column, and
a zero where there is none (`denseRow_eq_map`). That determines the arrays (`DenseModel.rows_eq`)
and the functions (`DenseModel.ranges_eq`, `DenseModel.objectiveForm_eq`) alike. A violation is zero
or the larger distance to the ends of a range, infinite ends included
(`Extended.isExcess_rangeViolation`).

Key definitions: `Coefficients.coefficientOf`, `Coefficients.rowOver`, `Extended.IsExcess`,
`Extended.IsDistance`, `DenseModel.Describes`.
Key theorems: `denseRow_eq_map`, `Extended.isExcess_rangeViolation`, `DenseModel.rows_eq`,
`DenseModel.ranges_eq`, `DenseModel.vector_eq_ok`, `DenseModel.describes_of_ofProblem`.
-/
namespace LinModel

open Extended

variable {L : Type}

/-! ### Rows -/

/-- The coefficient of a name, zero if it has none. -/
def Coefficients.coefficientOf (cs : Coefficients Extended) (name : VariableName) : Extended :=
  (cs.find? name).getD Scalar.zero

/-- The coefficients of names, in their order. -/
def Coefficients.rowOver (cs : Coefficients Extended) (names : List VariableName) :
    List Extended :=
  names.map cs.coefficientOf

section Rows

variable {names : List VariableName}

theorem modify_map (hnodup : names.Nodup) (g : VariableName → Extended)
    (f : Extended → Extended) {name : VariableName} {i : ℕ} (hi : names[i]? = some name) :
    (names.map g).modify i f = names.map fun n => if n = name then f (g n) else g n := by
  refine List.ext_getElem? fun j => ?_
  rw [List.getElem?_modify, List.getElem?_map, List.getElem?_map]
  cases hj : names[j]? with
  | none => rfl
  | some n =>
    have hplace : i = j ↔ n = name := by
      constructor
      · rintro rfl
        exact Option.some.inj (hj.symm.trans hi)
      · rintro rfl
        obtain ⟨hlt, -⟩ := List.getElem?_eq_some_iff.mp hi
        exact (List.getElem?_inj hlt hnodup).mp (hi.trans hj.symm)
    by_cases hn : n = name
    · simp [hplace.mpr hn, hn]
    · simp [hn, mt hplace.mp hn]

/-- Filling a row adds to each place the coefficient of its name. -/
theorem Coefficients.foldlM_row_map (hnodup : names.Nodup) : ∀ {cs : Coefficients Extended}
    (g : VariableName → Extended), cs.keys ⊆ names → cs.keys.Nodup →
    (cs.texts.foldlM (fun row (name, c) =>
        match lastIndex? (names.map (·.text)) name with
        | some i => .ok (row.modify i (· + c))
        | none => .error (.notInOrder name)) (names.map g) : Except (DenseError Extended) _)
      = .ok (names.map fun name => g name + cs.coefficientOf name)
  | [], g, _, _ => by
    have hsame : (fun name => g name + coefficientOf [] name) = g :=
      funext fun name => add_rational_zero _
    rw [hsame]
    rfl
  | (name, c) :: cs, g, hn, hkeys => by
    obtain ⟨hname, hrest⟩ := List.cons_subset.mp hn
    obtain ⟨hnew, hnodupRest⟩ := List.nodup_cons.mp hkeys
    obtain ⟨i, hi, hplace⟩ := exists_column hname
    have hsum : ∀ n, (if n = name then g n + c else g n) + coefficientOf cs n
        = g n + coefficientOf ((name, c) :: cs) n := by
      intro n
      unfold coefficientOf
      rw [Entries.find?_cons]
      by_cases h : n = name
      · subst h
        simp [Entries.find?_eq_none_of_not_mem hnew]
      · simp [h, Ne.symm h]
    rw [Coefficients.texts, List.map_cons, List.foldlM_cons]
    simp only [hi, ok_bind]
    rw [modify_map hnodup g (· + c) hplace]
    have ih := foldlM_row_map hnodup (fun n => if n = name then g n + c else g n) hrest hnodupRest
    simp only [hsum] at ih
    exact ih

/-- **A row has the coefficients of the names**, in their order. -/
theorem denseRow_eq_map (hnodup : names.Nodup) {cs : Coefficients Extended}
    (hcs : cs.AreOver names) :
    denseRow (names.map (·.text)) cs.texts = .ok (cs.rowOver names) := by
  have hrow := Coefficients.foldlM_row_map hnodup (fun _ => Scalar.zero) hcs.known hcs.nodup
  simp only [scalar_zero, rational_zero_add] at hrow
  rw [Coefficients.rowOver, ← hrow, denseRow, List.map_map]
  rfl

theorem Coefficients.rowIsFinite_rowOver {cs : Coefficients Extended} (h : cs.AreFinite) :
    RowIsFinite (cs.rowOver names) := by
  refine List.forall_mem_map.mpr fun name _ => ?_
  unfold coefficientOf
  cases hfind : cs.find? name with
  | none => rfl
  | some c =>
    obtain ⟨key, hmem⟩ := Entries.exists_mem_of_find? hfind
    exact h _ hmem

end Rows

/-! ### Amounts -/

namespace Extended

/-- The largest of some numbers. -/
def IsLargest (x : Extended) (l : List Extended) : Prop :=
  x ∈ l ∧ ∀ y ∈ l, Scalar.le y x = true

/-- The largest of zero and the distances by which a value is below and above a range. -/
def IsExcess (a : ℚ) (low high x : Extended) : Prop :=
  IsLargest x [low - rational a, rational a - high, rational 0]

/-- The distance of a value to the nearest integer. -/
def IsDistance (q : ℚ) (x : Extended) : Prop :=
  ∃ n : ℤ, x = rational |q - n| ∧ ∀ m : ℤ, |q - n| ≤ |q - m|

theorem le_iff_place {x y : Extended} (hx : Scalar.isNaN x = false) (hy : Scalar.isNaN y = false) :
    Scalar.le x y = true ↔ x.place ≤ y.place := by
  have hnot : Scalar.le x y = !Scalar.lt y x := by
    rcases isNaN_cases hx with ⟨p, rfl⟩ | ⟨_ | _, rfl⟩ <;>
      rcases isNaN_cases hy with ⟨q, rfl⟩ | ⟨_ | _, rfl⟩ <;> first
        | rfl
        | simp [← not_lt]
  rw [hnot, Bool.not_eq_true', ← Bool.not_eq_true, lt_iff_place hy hx, not_lt]

theorem maximum_eq_or {x y : Extended} (hx : Scalar.isNaN x = false) (hy : Scalar.isNaN y = false) :
    Scalar.maximum x y = x ∨ Scalar.maximum x y = y := by
  unfold Scalar.maximum
  rw [hx, hy, if_neg Bool.false_ne_true, if_neg Bool.false_ne_true]
  split_ifs
  · exact .inr rfl
  · exact .inl rfl

/-- A range is violated by the largest of zero and the distances to its ends. -/
theorem isExcess_rangeViolation (a : ℚ) {low high : Extended} (hlow : Scalar.isNaN low = false)
    (hhigh : Scalar.isNaN high = false) :
    IsExcess a low high (rangeViolation (rational a) low high) := by
  have hl : Scalar.isNaN (low - rational a) = false := by
    rcases isNaN_cases hlow with ⟨p, rfl⟩ | ⟨b, rfl⟩ <;> simp
  have hh : Scalar.isNaN (rational a - high) = false := by
    rcases isNaN_cases hhigh with ⟨p, rfl⟩ | ⟨b, rfl⟩ <;> simp
  have hm := isNaN_maximum hl hh
  have hz : Scalar.isNaN (Scalar.zero : Extended) = false := rfl
  have hv := isNaN_maximum hz hm
  have hplace := place_maximum hz hm
  rw [place_maximum hl hh] at hplace
  rw [rangeViolation, positivePart_eq_maximum hm]
  constructor
  · rcases maximum_eq_or hz hm with h | h
    · rw [h]
      simp
    · rw [h]
      rcases maximum_eq_or hl hh with h | h <;> rw [h] <;> simp
  · simp only [List.forall_mem_cons, List.not_mem_nil, false_implies, implies_true, and_true]
    rw [le_iff_place hl hv, le_iff_place hh hv, le_iff_place rfl hv, hplace]
    exact ⟨le_max_of_le_right (le_max_left _ _), le_max_of_le_right (le_max_right _ _),
      le_max_left _ _⟩

/-- Where integers are asked for, they are missed by the distance to the nearest one. -/
theorem isDistance_masked (q : ℚ) {discrete : Bool} {x : Extended}
    (hx : x = Scalar.distanceToInteger (rational q)
      * if discrete then Scalar.one else Scalar.zero) :
    if discrete then IsDistance q x else x = rational 0 := by
  rw [Scalar.distanceToInteger, round_rational, rational_sub, abs_rational] at hx
  subst hx
  cases discrete with
  | true =>
    refine ⟨roundEven q, ?_, roundEven_nearest q⟩
    rw [if_pos rfl, scalar_one, rational_mul, mul_one]
  | false => simp

end Extended

/-! ### The parts as maps -/

namespace DenseModel

variable {p : Problem Extended L} {d : DenseModel Extended}

/-- A problem with different names is sound if it has a dense form. -/
theorem isSound_of_ofProblem (hd : ofProblem p = .ok d) (hnames : p.names.Nodup)
    (hkeys : ∀ c ∈ p.constraints, c.coefficients.keys.Nodup)
    (hobjective : p.objective.coefficients.keys.Nodup) : p.IsSound := by
  obtain ⟨hconstraints, hknown, hfinite, hoffset⟩ := exists_ofProblem_iff.mp ⟨d, hd⟩
  exact ⟨hnames, fun c hc => ⟨(hconstraints c hc).2, (hconstraints c hc).1, hkeys c hc⟩,
    ⟨hfinite, hknown, hobjective⟩, hoffset⟩

theorem rows_eq (hs : p.IsSound) (hd : ofProblem p = .ok d) :
    d.rows = p.constraints.map fun c => c.coefficients.rowOver p.names := by
  have hof := ofProblem_eq_ok_iff.mp hd
  have hrows := (List.forall₂_and_left _ _).mpr ⟨hs.constraints, hof.rows⟩
  rw [← List.map_id d.rows]
  refine (map_eq_of_forall₂ hrows ?_).symm
  rintro c row ⟨hc, hrow⟩
  rw [hof.order, denseRow_eq_map hs.names_nodup hc] at hrow
  exact Except.ok.inj hrow

theorem objective_eq (hs : p.IsSound) (hd : ofProblem p = .ok d) :
    d.objective = p.objective.coefficients.rowOver p.names := by
  have hof := ofProblem_eq_ok_iff.mp hd
  have hrow := hof.objective
  rw [hof.order, denseRow_eq_map hs.names_nodup hs.objective] at hrow
  exact (Except.ok.inj hrow).symm

theorem ranges_eq (hs : p.IsSound) (hd : ofProblem p = .ok d) :
    d.ranges = p.constraints.map fun c =>
      ⟨⟨c.coefficients.rowOver p.names, Scalar.zero⟩, c.lower, c.upper⟩ := by
  have hof := ofProblem_eq_ok_iff.mp hd
  have hranges := (List.forall₂_and_left _ _).mpr ⟨hs.constraints, hof.ranges⟩
  rw [← List.map_id d.ranges]
  refine (map_eq_of_forall₂ hranges ?_).symm
  rintro c ⟨⟨row, constant⟩, lower, upper⟩ ⟨hc, hr⟩
  obtain ⟨hform, rfl, rfl⟩ := DenseRange.ofConstraint_eq_ok.mp hr
  obtain ⟨-, -, hrow, rfl⟩ := DenseForm.ofTerms_eq_ok.mp hform
  rw [hof.order, denseRow_eq_map hs.names_nodup hc] at hrow
  rw [Except.ok.inj hrow]
  rfl

theorem objectiveForm_eq (hd : ofProblem p = .ok d) :
    d.objectiveForm = ⟨d.objective, d.offset⟩ := by
  have hof := ofProblem_eq_ok_iff.mp hd
  obtain ⟨-, -, hrow, hconstant⟩ := DenseForm.ofTerms_eq_ok.mp hof.objectiveForm
  have hobjective := Except.ok.inj (hrow.symm.trans hof.objective)
  rw [← hobjective, hof.offset, ← hconstant]

/-- Names that all have a value make a vector, whatever the order of the values and whatever else
has one. -/
theorem vector_eq_ok {β : Type} {order : List String} {values : Entries String β}
    (h : ∀ name ∈ order, ∃ v, values.find? name = some v) :
    ∃ xs, vector order values = .ok xs ∧
      List.Forall₂ (fun name v => values.find? name = some v) order xs := by
  have hmissing : missingNames order values = [] := by
    rw [missingNames, List.filter_eq_nil_iff]
    intro name hname
    obtain ⟨v, hv⟩ := h name hname
    simp [Entries.has, hv]
  obtain ⟨xs, hxs⟩ := exists_forall₂ h
  refine ⟨xs, ?_, hxs⟩
  rw [vector, hmissing]
  exact congrArg Except.ok (filterMap_eq_of_forall₂ hxs)

/-! ### The functions -/

theorem isExcess_constraintViolation (hs : p.IsSound) (hd : ofProblem p = .ok d)
    (hends : ∀ c ∈ p.constraints, Scalar.isNaN c.lower = false ∧ Scalar.isNaN c.upper = false)
    (x : List ℚ) :
    List.Forall₂ (fun c v =>
      IsExcess (exactDot (c.coefficients.rowOver p.names) x) c.lower c.upper v)
      p.constraints (d.constraintViolation (x.map rational)) := by
  rw [DenseModel.constraintViolation, ranges_eq hs hd, List.map_map, List.forall₂_map_right_iff,
    List.forall₂_same]
  intro c hc
  have hfinite : RowIsFinite (c.coefficients.rowOver p.names) :=
    Coefficients.rowIsFinite_rowOver (hs.constraints c hc).finite
  have hactivity : DenseForm.valueAt ⟨c.coefficients.rowOver p.names, Scalar.zero⟩
      (x.map rational) = rational (exactDot (c.coefficients.rowOver p.names) x) := by
    rw [DenseForm.valueAt, dot_eq_exactDot hfinite, scalar_zero, add_rational_zero]
  rw [Function.comp_apply, DenseRange.violationAt, hactivity]
  exact isExcess_rangeViolation _ (hends c hc).1 (hends c hc).2

theorem objectiveValue_eq (hs : p.IsSound) (hd : ofProblem p = .ok d)
    (hfinite : RowIsFinite d.objective) (x : List ℚ) :
    d.objectiveValue (x.map rational) = rational (exactDot d.objective x + d.offset.toRat) := by
  obtain ⟨k, hk⟩ := isFinite_iff.mp hs.offset
  rw [DenseModel.objectiveValue, objectiveForm_eq hd, DenseForm.valueAt, dot_eq_exactDot hfinite,
    (ofProblem_eq_ok_iff.mp hd).offset, hk]
  rfl

theorem isExcess_boundViolation (hof : d.IsOf p)
    (hbounds : ∀ y ∈ p.vars, Scalar.isNaN y.lower = false ∧ Scalar.isNaN y.upper = false)
    (x : List ℚ) :
    List.Forall₂ (fun (y, q) v => IsExcess q y.lower y.upper v)
      (p.vars.zip x) (d.boundViolation (x.map rational)) := by
  rw [DenseModel.boundViolation, hof.variableLower, hof.variableUpper, List.zip_map',
    List.zip_map, List.map_map, ← List.zip_swap, List.forall₂_map_left_iff,
    List.forall₂_map_right_iff, List.forall₂_same]
  rintro ⟨q, y⟩ hmem
  obtain ⟨hlow, hhigh⟩ := hbounds y (List.of_mem_zip hmem).2
  exact isExcess_rangeViolation q hlow hhigh

theorem isDistance_integralityViolation (hof : d.IsOf p) (x : List ℚ) :
    List.Forall₂ (fun (y, q) v => if y.kind.isDiscrete then IsDistance q v else v = rational 0)
      (p.vars.zip x) (d.integralityViolation (x.map rational)) := by
  rw [DenseModel.integralityViolation, hof.integerMask, List.zip_map, List.map_map,
    ← List.zip_swap, List.forall₂_map_left_iff, List.forall₂_map_right_iff, List.forall₂_same]
  rintro ⟨q, y⟩ -
  exact isDistance_masked q rfl

/-! ### The description -/

/-- The arrays and the functions of a dense model describe a problem, at every finite vector with a
number for each variable: a row has the coefficients of its constraint in the columns of their
names; the functions of constraints and of the objective are those of the rows, though they do not
read these; and a vector is made of the values of the names. -/
structure Describes (d : DenseModel Extended) (p : Problem Extended L) : Prop where
  order : d.order = p.names.map (·.text)
  rows : d.rows = p.constraints.map fun c => c.coefficients.rowOver p.names
  rows_finite : ∀ row ∈ d.rows, RowIsFinite row
  lower : d.lower = p.constraints.map (·.lower)
  upper : d.upper = p.constraints.map (·.upper)
  objective : d.objective = p.objective.coefficients.rowOver p.names
  objective_finite : RowIsFinite d.objective
  offset : d.offset = p.objective.offset ∧ Scalar.isFinite d.offset = true
  activity : ∀ x : List ℚ, x.length = p.vars.length →
    d.activity (x.map rational) = d.rows.map fun row => rational (exactDot row x)
  constraintViolation : ∀ x : List ℚ, x.length = p.vars.length →
    List.Forall₂ (fun c v =>
      IsExcess (exactDot (c.coefficients.rowOver p.names) x) c.lower c.upper v)
      p.constraints (d.constraintViolation (x.map rational))
  objectiveValue : ∀ x : List ℚ, x.length = p.vars.length →
    d.objectiveValue (x.map rational) = rational (exactDot d.objective x + d.offset.toRat)
  boundViolation : ∀ x : List ℚ, x.length = p.vars.length →
    List.Forall₂ (fun (y, q) v => IsExcess q y.lower y.upper v)
      (p.vars.zip x) (d.boundViolation (x.map rational))
  integralityViolation : ∀ x : List ℚ, x.length = p.vars.length →
    List.Forall₂ (fun (y, q) v => if y.kind.isDiscrete then IsDistance q v else v = rational 0)
      (p.vars.zip x) (d.integralityViolation (x.map rational))
  vector : ∀ {β : Type} (items : List (String × β)),
    (∀ name ∈ p.names, name.text ∈ Entries.keys items) →
    ∃ xs, DenseModel.vector d.order (Entries.ofList items) = .ok xs ∧
      List.Forall₂ (fun name v => Entries.find? name.text items.reverse = some v) p.names xs

/-- **The dense arrays and the functions describe the same model.** -/
theorem describes_of_ofProblem (hd : ofProblem p = .ok d) (hnames : p.names.Nodup)
    (hkeys : ∀ c ∈ p.constraints, c.coefficients.keys.Nodup)
    (hobjective : p.objective.coefficients.keys.Nodup)
    (hconstraints : ∀ c ∈ p.constraints,
      Scalar.isNaN c.lower = false ∧ Scalar.isNaN c.upper = false)
    (hvars : ∀ y ∈ p.vars, Scalar.isNaN y.lower = false ∧ Scalar.isNaN y.upper = false) :
    d.Describes p := by
  have hs := isSound_of_ofProblem hd hnames hkeys hobjective
  have hof := ofProblem_eq_ok_iff.mp hd
  have hrows : ∀ row ∈ d.rows, RowIsFinite row := by
    rw [rows_eq hs hd]
    exact List.forall_mem_map.mpr fun c hc =>
      Coefficients.rowIsFinite_rowOver (hs.constraints c hc).finite
  have hobjectiveFinite : RowIsFinite d.objective := by
    rw [objective_eq hs hd]
    exact Coefficients.rowIsFinite_rowOver hs.objective.finite
  refine
    { order := hof.order
      rows := rows_eq hs hd
      rows_finite := hrows
      lower := hof.lower
      upper := hof.upper
      objective := objective_eq hs hd
      objective_finite := hobjectiveFinite
      offset := ⟨hof.offset, hof.offset ▸ hs.offset⟩
      activity := fun x _ => List.map_congr_left fun row hmem => dot_eq_exactDot (hrows row hmem) x
      constraintViolation := fun x _ => isExcess_constraintViolation hs hd hconstraints x
      objectiveValue := fun x _ => objectiveValue_eq hs hd hobjectiveFinite x
      boundViolation := fun x _ => isExcess_boundViolation hof hvars x
      integralityViolation := fun x _ => isDistance_integralityViolation hof x
      vector := fun items hitems => ?_ }
  rw [hof.order]
  have hfound : ∀ name ∈ p.names.map (·.text),
      ∃ v, Entries.find? name (Entries.ofList items) = some v :=
    List.forall_mem_map.mpr fun name hname =>
      Entries.exists_find?_ofList_iff.mpr (hitems name hname)
  obtain ⟨xs, hxs, hall⟩ := vector_eq_ok hfound
  refine ⟨xs, hxs, ?_⟩
  simp only [Entries.find?_ofList, List.forall₂_map_left_iff] at hall
  exact hall

/-- A constraint on the second of two variables, with no upper end. -/
def halfOpen : Problem Extended String where
  vars := [⟨.automatic 1, .integer, rational 0, infinite false⟩,
    ⟨.automatic 2, .numeric, infinite true, rational 4⟩]
  constraints := [⟨none, [(.automatic 2, rational 3)], rational 1, infinite false⟩]
  objective := ⟨[(.automatic 1, rational 2)], .min, rational 5⟩

/-- Its row has a zero in the first column, and the objective one in the second. -/
theorem halfOpen_described : ∃ d, ofProblem halfOpen = .ok d ∧ d.Describes halfOpen ∧
    d.rows = [[rational 0, rational 3]] ∧ d.objective = [rational 2, rational 0] := by
  obtain ⟨d, hd⟩ := exists_of_isOk (show (ofProblem halfOpen).isOk = true by decide +kernel)
  have hdescribes : d.Describes halfOpen := describes_of_ofProblem hd (by decide +kernel)
    (by decide +kernel) (by decide +kernel) (by decide +kernel) (by decide +kernel)
  refine ⟨d, hd, hdescribes, ?_, ?_⟩
  · rw [hdescribes.rows]
    decide +kernel
  · rw [hdescribes.objective]
    decide +kernel

end DenseModel

end LinModel
