import LinModel.Proofs.Dense.Functions
import LinModel.Proofs.Solving.Verification

/-!
# What a clean report says about special values

The values of a solution may be infinite or NaN. A dense row multiplies every value, also those of
variables that its constraint does not mention, whose coefficient is zero: a finite value adds
nothing, but zero times an infinity is NaN, and so is the whole sum (`dot_denseRow`). A report lists
the amounts above the tolerance, and a NaN is not above anything. So a constraint is listed if its
own terms are out of its range by more than the tolerance and neither they nor a value outside them
are spoiled; a bound, if the value is a number out of it; and a variable of an integer kind, if its
value is finite and far from every integer (`Builder.clean_report_iff`).

Where all values are finite, a clean report means that the model is satisfied within the tolerance.
In general it does not: one infinite value hides every constraint that does not mention its variable
(`Builder.spoiled_clean`).

Key definitions: `Coefficients.activityOn`, `Coefficients.IsSpoiled`, `Problem.IsSatisfiedWithin`,
`Problem.IsUnreported`.
Key theorems: `dot_denseRow`, `not_lt_rangeViolation_iff`, `not_lt_integrality_iff`,
`Violations.isClean_iff_isUnreported`, `Builder.clean_report_iff`.
-/
namespace LinModel

open Extended

variable {L : Type}

/-! ### Sums with special values -/

namespace Extended

@[simp] theorem add_notANumber (x : Extended) : x + notANumber = notANumber := by
  cases x <;> rfl

@[simp] theorem notANumber_add (x : Extended) : notANumber + x = notANumber := rfl

@[simp] theorem notANumber_mul (x : Extended) : notANumber * x = notANumber := rfl

theorem add_swap (x y z : Extended) : x + y + z = x + z + y := by
  rcases x with p | (_ | _) | _ <;> rcases y with q | (_ | _) | _ <;>
    rcases z with r | (_ | _) | _ <;> first
      | rfl
      | exact congrArg rational (add_right_comm p q r)

/-- Zero times a finite number is zero, and zero times anything else is NaN. -/
theorem zero_mul_eq (x : Extended) :
    rational 0 * x = if Scalar.isFinite x then rational 0 else notANumber := by
  cases x with
  | rational q =>
    rw [rational_mul, zero_mul]
    rfl
  | infinite s =>
    show magnify s 0 = notANumber
    exact if_pos rfl
  | notANumber => rfl

/-- Adding zero times each of some numbers changes nothing if they are finite, and gives NaN
otherwise. -/
theorem foldl_zero_mul (x : VariableName → Extended) : ∀ (names : List VariableName)
    (total : Extended), names.foldl (fun total name => total + rational 0 * x name) total
      = if ∀ name ∈ names, Scalar.isFinite (x name) = true then total else notANumber
  | [], total => by simp
  | name :: names, total => by
    rw [List.foldl_cons, foldl_zero_mul x names, zero_mul_eq]
    by_cases hname : Scalar.isFinite (x name) = true
    · simp [hname]
    · simp [hname]

end Extended

/-! ### Dense rows -/

/-- The sum of terms, from zero, where names have any values. -/
def Coefficients.activityOn (cs : Coefficients Extended) (x : VariableName → Extended) : Extended :=
  (Expression.linear cs Scalar.zero).evaluate x

/-- A value that the terms do not mention is not finite. -/
def Coefficients.IsSpoiled (cs : Coefficients Extended) (names : List VariableName)
    (x : VariableName → Extended) : Prop :=
  ∃ name ∈ names, name ∉ cs.keys ∧ Scalar.isFinite (x name) = false

instance (cs : Coefficients Extended) (names : List VariableName) (x : VariableName → Extended) :
    Decidable (cs.IsSpoiled names x) :=
  inferInstanceAs (Decidable (∃ name ∈ names, name ∉ cs.keys ∧ Scalar.isFinite (x name) = false))

section Rows

variable {names : List VariableName}

/-- The terms of the own names, added up in any order of these. -/
theorem Coefficients.foldl_keys {cs : Coefficients Extended} (hkeys : cs.keys.Nodup)
    (x : VariableName → Extended) :
    cs.keys.foldl (fun total name => total + cs.coefficientOf name * x name) (rational 0)
      = cs.activityOn x := by
  have hown : ∀ total, ∀ entry ∈ cs, total + cs.coefficientOf entry.1 * x entry.1
      = total + entry.2 * x entry.1 := by
    intro total entry hentry
    rw [Coefficients.coefficientOf, Entries.find?_eq_some_of_mem hkeys hentry]
    rfl
  rw [Entries.keys, List.foldl_map, List.foldl_ext _ _ _ hown, Coefficients.activityOn,
    Expression.evaluate_eq_foldl]
  rfl

/-- **A row adds up its own terms**, and zero times the other values: NaN, if one of these is not
finite. -/
theorem dot_denseRow (hnodup : names.Nodup) {cs : Coefficients Extended} (hcs : cs.AreOver names)
    (x : VariableName → Extended) :
    Scalar.dot (cs.rowOver names) (names.map x)
      = if cs.IsSpoiled names x then notANumber else cs.activityOn x := by
  have hperm : names.Perm (cs.keys ++ names.filter (· ∉ cs.keys)) := by
    have hdisjoint : (cs.keys ++ names.filter (· ∉ cs.keys)).Nodup := by
      refine List.nodup_append.mpr ⟨hcs.nodup, hnodup.filter _, ?_⟩
      rintro name hname _ hother rfl
      simpa [hname] using List.mem_filter.mp hother
    rw [List.perm_ext_iff_of_nodup hnodup hdisjoint]
    intro name
    by_cases hname : name ∈ cs.keys
    · simp [hname, hcs.known hname]
    · simp [hname]
  have hother : ∀ total, ∀ name ∈ names.filter (· ∉ cs.keys),
      total + cs.coefficientOf name * x name = total + rational 0 * x name := by
    intro total name hname
    have hnew : name ∉ cs.keys := by simpa using (List.mem_filter.mp hname).2
    rw [Coefficients.coefficientOf, Entries.find?_eq_none_of_not_mem hnew]
    rfl
  have hswap : RightCommutative fun (total : Extended) name =>
      total + cs.coefficientOf name * x name := ⟨fun _ _ _ => add_swap _ _ _⟩
  have hfold : Scalar.dot (cs.rowOver names) (names.map x)
      = names.foldl (fun total name => total + cs.coefficientOf name * x name) (rational 0) := by
    rw [Scalar.dot, Coefficients.rowOver, List.zip_map', List.foldl_map]
    rfl
  rw [hfold, hperm.foldl_eq, List.foldl_append, Coefficients.foldl_keys hcs.nodup,
    List.foldl_ext _ _ _ hother, foldl_zero_mul]
  have hvalues : (∀ name ∈ names.filter (· ∉ cs.keys), Scalar.isFinite (x name) = true) ↔
      ¬cs.IsSpoiled names x := by
    simp only [Coefficients.IsSpoiled, List.mem_filter, decide_eq_true_eq, not_exists, not_and,
      Bool.not_eq_false, and_imp]
  by_cases hspoiled : cs.IsSpoiled names x
  · rw [if_neg fun h => hvalues.mp h hspoiled, if_pos hspoiled]
  · rw [if_pos (hvalues.mpr hspoiled), if_neg hspoiled]

end Rows

/-! ### Amounts that are not listed -/

/-- The terms are in the range, give or take `t`. -/
def CompiledConstraint.IsWithin (c : CompiledConstraint Extended L) (t : ℚ)
    (x : VariableName → Extended) : Prop :=
  Scalar.le (c.lower - rational t) (c.coefficients.activityOn x) = true ∧
    Scalar.le (c.coefficients.activityOn x) (c.upper + rational t) = true

/-- The value is in the bounds, give or take `t`. -/
def CompiledVariable.IsWithin (y : CompiledVariable Extended) (t : ℚ)
    (x : VariableName → Extended) : Prop :=
  Scalar.le (y.lower - rational t) (x y.name) = true ∧
    Scalar.le (x y.name) (y.upper + rational t) = true

/-- The value is an integer, give or take `t`. -/
def CompiledVariable.IsNearInteger (y : CompiledVariable Extended) (t : ℚ)
    (x : VariableName → Extended) : Prop :=
  ∃ n : ℤ, Scalar.le (Scalar.abs (x y.name - rational n)) (rational t) = true

section Tolerance

variable {t : ℚ}

theorem not_lt_sub_value {low : Extended} (hlow : Scalar.isNaN low = false) (q : ℚ) :
    ¬Scalar.lt (rational t) (low - rational q) = true ↔
      Scalar.le (low - rational t) (rational q) = true := by
  rcases isNaN_cases hlow with ⟨p, rfl⟩ | ⟨_ | _, rfl⟩
  · simp only [rational_sub, lt_rational, le_rational, decide_eq_true_eq, not_lt]
    exact ⟨fun h => by linarith, fun h => by linarith⟩
  · exact iff_of_false (fun h => h rfl) nofun
  · exact iff_of_true nofun rfl

theorem not_lt_value_sub {high : Extended} (hhigh : Scalar.isNaN high = false) (q : ℚ) :
    ¬Scalar.lt (rational t) (rational q - high) = true ↔
      Scalar.le (rational q) (high + rational t) = true := by
  rcases isNaN_cases hhigh with ⟨p, rfl⟩ | ⟨_ | _, rfl⟩
  · simp only [rational_sub, rational_add, lt_rational, le_rational, decide_eq_true_eq, not_lt]
    exact ⟨fun h => by linarith, fun h => by linarith⟩
  · exact iff_of_true nofun rfl
  · exact iff_of_false (fun h => h rfl) nofun

variable (ht : 0 ≤ t)

include ht

/-- **A value is not listed as out of a range** if it is NaN or in the range, give or take the
tolerance; infinite values and ends are no exception. -/
theorem not_lt_rangeViolation_iff (a : Extended) {low high : Extended}
    (hlow : Scalar.isNaN low = false) (hhigh : Scalar.isNaN high = false)
    (hordered : Scalar.lt high low = false) :
    ¬Scalar.lt (rational t) (rangeViolation a low high) = true ↔
      Scalar.isNaN a = true ∨ Scalar.le (low - rational t) a = true ∧
        Scalar.le a (high + rational t) = true := by
  have hzero : Scalar.le Scalar.zero (rational t) = true := by simpa using ht
  cases a with
  | rational q =>
    rw [lt_rangeViolation hzero q hlow hhigh, not_or, not_lt_sub_value hlow, not_lt_value_sub hhigh]
    exact (or_iff_right nofun).symm
  | infinite s =>
    -- the other end decides; if both ends are this infinity, its distance to them is NaN
    rcases isNaN_cases hlow with ⟨p, rfl⟩ | ⟨_ | _, rfl⟩ <;>
      rcases isNaN_cases hhigh with ⟨q, rfl⟩ | ⟨_ | _, rfl⟩ <;> cases s <;> first
        | exact iff_of_true nofun (.inr ⟨rfl, rfl⟩)
        | exact iff_of_false (fun h => h rfl) nofun
        | cases hordered
  | notANumber =>
    have hnan : rangeViolation notANumber low high = notANumber := by cases low <;> rfl
    rw [hnan]
    exact iff_of_true nofun (.inl rfl)

/-- **A value is not listed as missing the integers** if it need not be one, is not finite, or is
an integer, give or take the tolerance. -/
theorem not_lt_integrality_iff (a : Extended) (discrete : Bool) :
    ¬Scalar.lt (rational t)
        (Scalar.distanceToInteger a * if discrete then Scalar.one else Scalar.zero) = true ↔
      (discrete = true → Scalar.isFinite a = true →
        ∃ n : ℤ, Scalar.le (Scalar.abs (a - rational n)) (rational t) = true) := by
  have hzero : Scalar.le Scalar.zero (rational t) = true := by simpa using ht
  cases a with
  | rational q =>
    cases discrete with
    | false =>
      have hnone : ¬Scalar.lt (rational t) (rational 0) = true := not_lt_zero hzero
      simpa [Scalar.distanceToInteger] using hnone
    | true =>
      have hone : Scalar.distanceToInteger (rational q) * Scalar.one
          = Scalar.distanceToInteger (rational q) := by simp [Scalar.distanceToInteger]
      rw [if_pos rfl, hone, lt_distanceToInteger hzero]
      simp
  | infinite s =>
    have hnan : Scalar.distanceToInteger (infinite s) = notANumber := by cases s <;> rfl
    rw [hnan, notANumber_mul]
    exact iff_of_true Bool.false_ne_true fun _ h => absurd h Bool.false_ne_true
  | notANumber =>
    have hnan : Scalar.distanceToInteger notANumber = notANumber := rfl
    rw [hnan, notANumber_mul]
    exact iff_of_true Bool.false_ne_true fun _ h => absurd h Bool.false_ne_true

end Tolerance

/-! ### Reports -/

/-- Everything asked for is met, give or take `t`, and all values are numbers. -/
structure Problem.IsSatisfiedWithin (p : Problem Extended L) (t : ℚ)
    (x : VariableName → Extended) : Prop where
  constraints : ∀ c ∈ p.constraints, c.IsWithin t x
  bounds : ∀ y ∈ p.vars, y.IsWithin t x
  numbers : ∀ y ∈ p.vars, Scalar.isNaN (x y.name) = false
  integers : ∀ y ∈ p.vars, y.kind.isDiscrete = true → y.IsNearInteger t x

/-- What a clean report says: everything asked for is met, give or take `t`, but for constraints
that are spoiled or whose terms are NaN, bounds on NaN, and integers that are not finite. -/
@[mk_iff]
structure Problem.IsUnreported (p : Problem Extended L) (t : ℚ)
    (x : VariableName → Extended) : Prop where
  constraints : ∀ c ∈ p.constraints, c.coefficients.IsSpoiled p.names x ∨
    Scalar.isNaN (c.coefficients.activityOn x) = true ∨ c.IsWithin t x
  bounds : ∀ y ∈ p.vars, Scalar.isNaN (x y.name) = true ∨ y.IsWithin t x
  integers : ∀ y ∈ p.vars, y.kind.isDiscrete = true → Scalar.isFinite (x y.name) = true →
    y.IsNearInteger t x

/-- No range is empty. -/
structure Problem.IsOrdered (p : Problem Extended L) : Prop where
  constraints : ∀ c ∈ p.constraints, Scalar.lt c.upper c.lower = false
  vars : ∀ y ∈ p.vars, Scalar.lt y.upper y.lower = false

section Whole

variable {p : Problem Extended L} {d : DenseModel Extended}

theorem DenseModel.constraintViolation_eq (hs : p.IsSound) (hd : ofProblem p = .ok d)
    (x : VariableName → Extended) :
    d.constraintViolation (p.names.map x) = p.constraints.map fun c =>
      rangeViolation (if c.coefficients.IsSpoiled p.names x then notANumber
        else c.coefficients.activityOn x) c.lower c.upper := by
  rw [constraintViolation, ranges_eq hs hd, List.map_map]
  refine List.map_congr_left fun c hc => ?_
  rw [Function.comp_apply, DenseRange.violationAt, DenseForm.valueAt,
    dot_denseRow hs.names_nodup (hs.constraints c hc), scalar_zero, add_rational_zero]

theorem DenseModel.boundViolation_eq (hd : ofProblem p = .ok d) (x : VariableName → Extended) :
    d.boundViolation (p.names.map x) = p.vars.map fun y =>
      rangeViolation (x y.name) y.lower y.upper := by
  have hof := ofProblem_eq_ok_iff.mp hd
  rw [boundViolation, hof.variableLower, hof.variableUpper, Problem.names, List.map_map,
    List.zip_map', List.zip_map', List.map_map]
  rfl

theorem DenseModel.integralityViolation_eq (hd : ofProblem p = .ok d)
    (x : VariableName → Extended) :
    d.integralityViolation (p.names.map x) = p.vars.map fun y =>
      Scalar.distanceToInteger (x y.name)
        * if y.kind.isDiscrete then Scalar.one else Scalar.zero := by
  rw [integralityViolation, (ofProblem_eq_ok_iff.mp hd).integerMask, Problem.names, List.map_map,
    List.zip_map', List.map_map]
  rfl

/-- **A report is clean if all that is not met is spoiled.** -/
theorem Violations.isClean_iff_isUnreported [BEq L] (byIndex : ℕ → L) (hs : p.IsSound)
    (hb : p.IsBounded) (ho : p.IsOrdered) (hd : DenseModel.ofProblem p = .ok d)
    (horder : d.order = p.names.map (·.text)) {t : ℚ} (ht : 0 ≤ t)
    (x : VariableName → Extended) :
    (ofAssignment byIndex p d (p.names.map x) (rational t)).isClean = true ↔
      p.IsUnreported t x := by
  have hvars : d.order.length = p.vars.length := by simp [horder, Problem.names]
  simp only [isClean, ofAssignment, measured, Bool.and_eq_true, and_assoc]
  rw [DenseModel.constraintViolation_eq hs hd, DenseModel.boundViolation_eq hd,
    DenseModel.integralityViolation_eq hd, beyond_isEmpty (by simp [labels]),
    beyond_isEmpty (by simp [hvars]), beyond_isEmpty (by simp [hvars]), Problem.isUnreported_iff]
  simp only [List.forall_mem_map]
  refine and_congr (forall₂_congr fun c hc => ?_) (and_congr (forall₂_congr fun y hy => ?_)
    (forall₂_congr fun y hy => not_lt_integrality_iff ht _ _))
  · obtain ⟨hlow, hhigh, -⟩ := hb.constraints c hc
    rw [not_lt_rangeViolation_iff ht _ hlow hhigh (ho.constraints c hc)]
    by_cases hspoiled : c.coefficients.IsSpoiled p.names x
    · rw [if_pos hspoiled]
      exact iff_of_true (.inl rfl) (.inl hspoiled)
    · rw [if_neg hspoiled]
      exact (or_iff_right hspoiled).symm
  · obtain ⟨hlow, hhigh, -⟩ := hb.vars y hy
    exact not_lt_rangeViolation_iff ht _ hlow hhigh (ho.vars y hy)

theorem Coefficients.isNaN_activityOn {cs : Coefficients Extended} (hcs : cs.AreOver p.names)
    {x : VariableName → Extended} (hx : ∀ name ∈ p.names, Scalar.isFinite (x name) = true) :
    Scalar.isNaN (cs.activityOn x) = false := by
  have hvalue : ∀ total, ∀ entry ∈ cs, total + entry.2 * x entry.1
      = total + entry.2 * rational (x entry.1).toRat := by
    intro total entry hentry
    obtain ⟨q, hq⟩ := isFinite_iff.mp
      (hx entry.1 (hcs.known (List.mem_map_of_mem (f := Prod.fst) hentry)))
    rw [hq, toRat_rational]
  have hpoint : cs.activityOn x = cs.activityAt fun name => (x name).toRat := by
    rw [activityOn, activityAt, Expression.valueAt, Expression.evaluate_eq_foldl,
      Expression.evaluate_eq_foldl]
    exact List.foldl_ext _ _ _ hvalue
  rw [hpoint, activityAt_eq _ hcs.finite]
  rfl

/-- Among finite values, nothing is spoiled. -/
theorem Problem.isUnreported_iff_isSatisfiedWithin (hs : p.IsSound) {t : ℚ}
    {x : VariableName → Extended} (hx : ∀ name ∈ p.names, Scalar.isFinite (x name) = true) :
    p.IsUnreported t x ↔ p.IsSatisfiedWithin t x := by
  have hvalue : ∀ y ∈ p.vars, Scalar.isFinite (x y.name) = true := fun y hy =>
    hx y.name (List.mem_map_of_mem (f := (·.name)) hy)
  have hnumber : ∀ y ∈ p.vars, Scalar.isNaN (x y.name) = false := by
    intro y hy
    obtain ⟨q, hq⟩ := isFinite_iff.mp (hvalue y hy)
    rw [hq, isNaN_rational]
  constructor
  · intro h
    refine ⟨fun c hc => ?_, fun y hy => ?_, hnumber, fun y hy hkind => ?_⟩
    · rcases h.constraints c hc with ⟨name, hname, -, hinfinite⟩ | hnan | hwithin
      · rw [hx name hname] at hinfinite
        cases hinfinite
      · rw [Coefficients.isNaN_activityOn (hs.constraints c hc) hx] at hnan
        cases hnan
      · exact hwithin
    · exact (h.bounds y hy).resolve_left (by rw [hnumber y hy]; nofun)
    · exact h.integers y hy hkind (hvalue y hy)
  · intro h
    exact ⟨fun c hc => .inr (.inr (h.constraints c hc)), fun y hy => .inr (h.bounds y hy),
      fun y hy hkind _ => h.integers y hy hkind⟩

end Whole

namespace Builder

variable {b : Builder Extended L} {settings : Settings Extended} {m : CompiledModel Extended L}

theorem isOrdered_of_build (hb : b.IsSound) (hm : b.build settings = .ok m) :
    m.toProblem.IsOrdered where
  constraints c' hc' := by
    obtain ⟨c, -, hc, hcompile⟩ := exists_mem_of_forall₂ (constraints_of_build hb hm) hc'
    obtain ⟨k, hlower, hupper, -⟩ := compileConstraint_terms hc hcompile
    rw [hlower, hupper]
    cases c.relationship with
    | eq => simp [Relationship.range]
    | le | ge => rfl
  vars y' hy' := by
    obtain ⟨y, hy, h⟩ := exists_mem_of_forall₂ (vars_of_build hb hm) hy'
    rw [h.lower, h.upper]
    by_cases hkind : y.kind = .boolean
    · rw [((hb.vars y hy).boolean hkind).1, ((hb.vars y hy).boolean hkind).2]
      decide +kernel
    · exact ((hb.vars y hy).ordered hkind).2.2

/-- **What a clean report says.** Let a model be built, and let a solution of it that is optimal or
feasible have a value for every variable, finite or not. Verifying it with a finite tolerance of at
least zero returns a report. It is clean if and only if every constraint that is not spoiled, every
bound on a number and every integer that is finite is met, give or take the tolerance. If all values
are finite, it is clean if and only if the model is satisfied, give or take the tolerance. -/
theorem clean_report_iff [BEq L] (byIndex : ℕ → L) (hb : b.Reachable)
    (hm : b.build settings = .ok m) {s : Solution Extended L} (hmodel : s.model = some m)
    (hstatus : s.status = .optimal ∨ s.status = .feasible) {x : VariableName → Extended}
    (hvalues : ∀ name ∈ m.names, s.values.find? name.text = some (x name)) {t : ℚ} (ht : 0 ≤ t) :
    ∃ r, s.verify byIndex (rational t) = .ok r ∧ (r.isClean = true ↔ m.IsUnreported t x) ∧
      ((∀ name ∈ m.names, Scalar.isFinite (x name) = true) →
        (r.isClean = true ↔ m.IsSatisfiedWithin t x)) := by
  have hsound := hb.isSound
  obtain ⟨-, hs⟩ := isSound_of_build hsound hm
  obtain ⟨d, hd, horder, -⟩ := DenseModel.ofProblem_eq_ok hs
  have hsolution : s.status.hasSolution = true := by
    rcases hstatus with h | h <;> rw [h] <;> rfl
  have hclean := Violations.isClean_iff_isUnreported byIndex hs (isBounded_of_build hsound hm)
    (isOrdered_of_build hsound hm) hd horder ht x
  refine ⟨_, Solution.verify_of_find byIndex hd horder hmodel hsolution hvalues _, hclean,
    fun hx => ?_⟩
  rw [hclean, Problem.isUnreported_iff_isSatisfiedWithin hs hx]

/-- The solution that gives every variable its value. -/
def solutionAt (x : VariableName → Extended) (m : CompiledModel Extended L) : Solution Extended L :=
  ⟨.optimal, none, m.names.map fun name => (name.text, x name), [], some m⟩

theorem find?_solutionAt (x : VariableName → Extended) (hs : m.toProblem.IsSound) :
    ∀ name ∈ m.names, (solutionAt x m).values.find? name.text = some (x name) := by
  have hkeys : (Entries.keys (solutionAt x m).values).Nodup := by
    have htexts : Entries.keys (solutionAt x m).values = m.names.map (·.text) := by
      simp [solutionAt, Entries.keys, Function.comp_def]
    rw [htexts]
    exact hs.names_nodup.map fun _ _ => VariableName.eq_of_text_eq
  exact fun name hname => Entries.find?_eq_some_of_mem hkeys (List.mem_map_of_mem hname)

/-- The model of a builder, and the report on values for its variables. -/
def verified (b : Builder Extended String) (x : VariableName → Extended) :
    Option (CompiledModel Extended String × Violations Extended String) :=
  (b.build ⟨some .highs, rational 0⟩).toOption.bind fun m =>
    ((solutionAt x m).verify byNumber (rational 0)).toOption.map fun r => (m, r)

theorem of_verified_eq_some {b : Builder Extended String} {x : VariableName → Extended}
    {m : CompiledModel Extended String} {r : Violations Extended String}
    (h : verified b x = some (m, r)) :
    b.build ⟨some .highs, rational 0⟩ = .ok m ∧
      (solutionAt x m).verify byNumber (rational 0) = .ok r := by
  obtain ⟨m', hm, h⟩ := Option.bind_eq_some_iff.mp h
  obtain ⟨r', hr, h⟩ := Option.map_eq_some_iff.mp h
  cases h
  exact ⟨toOption_eq_some.mp hm, toOption_eq_some.mp hr⟩

/-- The report on 2 for the variable of the sample is clean, so 2 satisfies it. -/
theorem sample_satisfied : ∃ m, sample.build ⟨some .highs, rational 0⟩ = .ok m ∧
    m.IsSatisfiedWithin 0 fun _ => rational 2 := by
  have hclean : ((verified sample fun _ => rational 2).map fun r => r.2.isClean) = some true := by
    decide +kernel
  obtain ⟨⟨m, r⟩, hrun, hclean⟩ := Option.map_eq_some_iff.mp hclean
  obtain ⟨hm, hr⟩ := of_verified_eq_some hrun
  obtain ⟨r', hr', -, hfinite⟩ := clean_report_iff byNumber sample_reachable hm rfl
    (.inl rfl) (find?_solutionAt _ (isSound_of_build sample_reachable.isSound hm).2) le_rfl
  cases hr.symm.trans hr'
  exact ⟨m, hm, (hfinite fun _ _ => rfl).mp hclean⟩

/-- Two variables, `x1 ≥ 1`, and `x1` to be made small. -/
def halfBound : Builder Extended String :=
  let declared := after (declare .numeric none none none) (after (declare .numeric none none none)
    empty)
  let related := after (relate (.expression (.term (.automatic 1) (rational 1)))
    (.number (rational 1)) .ge none) declared
  after (setObjective (.expression (.term (.automatic 1) (rational 1))) .min) related

theorem halfBound_reachable : halfBound.Reachable := by
  have hterm : (Operand.expression (.term (.automatic 1) (rational 1))).IsSound :=
    .expression (Expression.isSound_term _ 1)
  exact .step (.step (.step (.step (.refl _) (.declare _ _ _ _ _)) (.declare _ _ _ _ _))
    (.relate _ hterm (.number _) _ _)) (.setObjective _ hterm _)

/-- The value zero for `x1` and an infinite one for `x2`. -/
def spoiling (name : VariableName) : Extended :=
  if name = .automatic 1 then rational 0 else infinite false

/-- These values break `x1 ≥ 1`, but the report on them is clean. -/
theorem spoiled_clean : halfBound.Reachable ∧ ∃ m r,
    halfBound.build ⟨some .highs, rational 0⟩ = .ok m ∧
    (solutionAt spoiling m).verify byNumber (rational 0) = .ok r ∧
    r.isClean = true ∧ ¬m.IsSatisfiedWithin 0 spoiling := by
  have hrun : ((verified halfBound spoiling).map fun r => (r.2.isClean, r.1.constraints.all fun c =>
      Scalar.le (c.lower - rational 0) (c.coefficients.activityOn spoiling)))
      = some (true, false) := by
    decide +kernel
  obtain ⟨⟨m, r⟩, hrun, hresult⟩ := Option.map_eq_some_iff.mp hrun
  obtain ⟨hm, hr⟩ := of_verified_eq_some hrun
  obtain ⟨hclean, hbroken⟩ := Prod.mk.inj hresult
  refine ⟨halfBound_reachable, m, r, hm, hr, hclean, fun h => ?_⟩
  rw [List.all_eq_true.mpr fun c hc => (h.constraints c hc).1] at hbroken
  cases hbroken

end Builder
end LinModel
