import LinModel.Proofs.Solving.Violations
import LinModel.Solving.Optimize

/-!
# Solving is silent exactly on feasible answers

A run from start to end with a backend that answers with a value for every variable, in any order,
leaves a report behind if and only if the answer violates the model as it was registered by more
than the tolerance: some constraint as written, some bound, or some integer. What is registered and
what is measured correspond one by one: a compiled constraint is out of its range by more than the
tolerance where the sides of the constraint break their relation by more
(`compileConstraint_exceedsAt`), and a compiled variable is the variable.

Key definitions: `Constraint.ExceedsAt`, `Variable.ExceedsAt`, `Variable.IsFractionalAt`,
`Builder.ViolatedAt`.
Key theorems: `compileConstraint_exceedsAt`, `Solution.verify_of_find`, `Solution.verify_eq_ok`,
`optimize_eq`, `optimize_warns_iff`.
-/
namespace LinModel

open Extended

variable {L : Type}

/-! ### What is registered and what is measured -/

def Constraint.ExceedsAt (c : Constraint Extended L) (t : Extended) (v : Point) : Prop :=
  match c.relationship with
  | .le => Scalar.lt t (c.left.valueAt v - c.right.valueAt v) = true
  | .ge => Scalar.lt t (c.right.valueAt v - c.left.valueAt v) = true
  | .eq => Scalar.lt t (Scalar.abs (c.left.valueAt v - c.right.valueAt v)) = true

/-- The value of a variable is out of its bounds by more than `t`. -/
def Variable.ExceedsAt (x : Variable Extended) (t : Extended) (v : Point) : Prop :=
  Scalar.lt t (x.lower - rational (v x.name)) = true ∨
    Scalar.lt t (rational (v x.name) - x.upper) = true

/-- The value of an integer or boolean variable is farther than `t` from every integer. -/
def Variable.IsFractionalAt (x : Variable Extended) (t : Extended) (v : Point) : Prop :=
  x.kind.isDiscrete = true ∧ ∀ n : ℤ, Scalar.lt t (rational |v x.name - n|) = true

/-- Some constraint or bound is broken, or some integer missed, by more than `t`. -/
def Builder.ViolatedAt (b : Builder Extended L) (t : Extended) (v : Point) : Prop :=
  (∃ c ∈ b.constraints, c.ExceedsAt t v) ∨ (∃ x ∈ b.vars, x.ExceedsAt t v) ∨
    ∃ x ∈ b.vars, x.IsFractionalAt t v

theorem compileConstraint_exceedsAt {known : List VariableName} {c : Constraint Extended L}
    {label : Option L} {c' : CompiledConstraint Extended L} (h : c.IsSound)
    (hc : compileConstraint known c label = .ok c') {t : Extended}
    (ht : Scalar.le Scalar.zero t = true) (v : Point) : c.ExceedsAt t v ↔ c'.ExceedsAt t v := by
  obtain ⟨k, hlower, hupper, hterms⟩ := compileConstraint_terms h hc
  -- what is not bounded on a side is never exceeded there
  have hinf : ∀ q : ℚ, ¬Scalar.lt t (infinite true - rational q) = true ∧
      ¬Scalar.lt t (rational q - infinite false) = true := fun q => by
    rcases nonneg_cases ht with ⟨r, rfl, -⟩ | rfl <;> simp
  have hbelow : ∀ x y : ℚ, -k - (x - y - k) = y - x := fun x y => by ring
  have habove : ∀ x y : ℚ, x - y - k - -k = x - y := fun x y => by ring
  unfold Constraint.ExceedsAt CompiledConstraint.ExceedsAt
  rw [hlower, hupper, hterms, Expression.valueAt_eq h.left, Expression.valueAt_eq h.right]
  cases c.relationship with
  | le =>
    simp only [Relationship.range, rational_sub, habove]
    exact (or_iff_right (hinf _).1).symm
  | ge =>
    simp only [Relationship.range, rational_sub, hbelow]
    exact (or_iff_left (hinf _).2).symm
  | eq =>
    simp only [Relationship.range, rational_sub, habove, hbelow, abs_rational]
    rcases nonneg_cases ht with ⟨r, rfl, -⟩ | rfl
    · simp only [lt_rational, decide_eq_true_eq, lt_abs, neg_sub, or_comm]
    · simp

theorem Builder.not_violatedAt_iff {b : Builder Extended L} (hb : b.IsSound)
    {settings : Settings Extended} {m : CompiledModel Extended L}
    (hm : b.build settings = .ok m) (ht : Scalar.le Scalar.zero settings.tolerance = true)
    (v : Point) :
    ¬b.ViolatedAt settings.tolerance v ↔
      (∀ c ∈ m.constraints, ¬c.ExceedsAt m.tolerance v) ∧
        (∀ x ∈ m.vars, ¬x.ExceedsAt m.tolerance v) ∧
          ∀ x ∈ m.vars, ¬x.IsFractionalAt m.tolerance v := by
  rw [(build_eq_ok.mp hm).2, ViolatedAt, not_or, not_or]
  simp only [not_exists, not_and]
  have hvars := vars_of_build hb hm
  refine and_congr ?_ (and_congr ?_ ?_)
  · exact forall_mem_congr (constraints_of_build hb hm) fun c c' h =>
      not_congr (compileConstraint_exceedsAt h.1 h.2 ht v)
  · refine forall_mem_congr hvars fun x x' h => not_congr ?_
    rw [Variable.ExceedsAt, CompiledVariable.ExceedsAt, h.name, h.lower, h.upper]
  · refine forall_mem_congr hvars fun x x' h => not_congr ?_
    rw [Variable.IsFractionalAt, CompiledVariable.IsFractionalAt, h.name, h.kind]

/-! ### The run -/

theorem Solution.vector_of_find {K : Type} {s : Solution K L} {names : List VariableName}
    {x : VariableName → K}
    (hfind : ∀ name ∈ names, s.values.find? name.text = some (x name)) :
    s.vector (names.map (·.text)) = .ok (names.map x) := by
  have hmissing : DenseModel.missingNames (names.map (·.text)) s.values = [] := by
    rw [DenseModel.missingNames, List.filter_eq_nil_iff, List.forall_mem_map]
    intro name hname
    simp [Entries.has, hfind name hname]
  have hvalues : (names.map (·.text)).filterMap (fun name => s.values.find? name)
      = names.map x := by
    rw [List.filterMap_map, ← List.filterMap_eq_map]
    exact List.filterMap_congr hfind
  rw [vector, DenseModel.vector, hmissing]
  exact congrArg Except.ok hvalues

theorem Solution.find?_values {s : Solution Extended L} {names : List VariableName} {v : Point}
    (hn : names.Nodup)
    (h : s.values.Perm (names.map fun name => (name.text, rational (v name)))) :
    ∀ name ∈ names, s.values.find? name.text = some (rational (v name)) := by
  have hkeys : (Entries.keys s.values).Nodup := by
    have hperm : (Entries.keys s.values).Perm (names.map (·.text)) := by
      simpa [Entries.keys, Function.comp_def] using h.map Prod.fst
    rw [hperm.nodup_iff]
    exact hn.map fun _ _ => VariableName.eq_of_text_eq
  exact fun name hname => Entries.find?_eq_some_of_mem hkeys
    (h.mem_iff.mpr (List.mem_map_of_mem hname))

theorem Solution.verify_of_find {K : Type} [Scalar K] [BEq L] (byIndex : ℕ → L)
    {s : Solution K L} {m : CompiledModel K L} {d : DenseModel K} {x : VariableName → K}
    (hd : DenseModel.ofProblem m.toProblem = .ok d) (horder : d.order = m.names.map (·.text))
    (hmodel : s.model = some m) (hstatus : s.status.hasSolution = true)
    (hfind : ∀ name ∈ m.names, s.values.find? name.text = some (x name)) (t : K) :
    s.verify byIndex t = .ok (.ofAssignment byIndex m.toProblem d (m.names.map x) t) := by
  simp only [verify, verifyWith, hmodel, hstatus, hd, horder, vector_of_find hfind]
  rfl

/-- **The report on a solution is the report on its point.** The model is the one it carries, and
the point has its values in any order. -/
theorem Solution.verify_eq_ok [BEq L] (byIndex : ℕ → L) {s : Solution Extended L}
    {m : CompiledModel Extended L} {v : Point} (hm : m.toProblem.IsSound)
    (hmodel : s.model = some m) (hstatus : s.status.hasSolution = true)
    (hvalues : s.values.Perm (m.names.map fun name => (name.text, rational (v name))))
    (t : Extended) :
    ∃ d : DenseModel Extended, d.order = m.names.map (·.text) ∧ d.Measures m.toProblem ∧
      s.verify byIndex t = .ok (.ofAssignment byIndex m.toProblem d (m.vectorAt v) t) := by
  obtain ⟨d, hd, horder, hmeasures⟩ := DenseModel.ofProblem_eq_ok hm
  exact ⟨d, horder, hmeasures, verify_of_find byIndex hd horder hmodel hstatus
    (find?_values hm.names_nodup hvalues) t⟩

theorem optimize_eq {K ε : Type} [Scalar K] [BEq L] {byIndex : ℕ → L} {b : Builder K L}
    {settings : Builder.Settings K} {backend : CompiledModel K L → Except ε (Solution K L)}
    {m : CompiledModel K L} {s : Solution K L} {report : Violations K L}
    (hm : b.build settings = .ok m) (hs : backend m = .ok s)
    (hstatus : s.status.hasSolution = true)
    (hreport : ({ s with model := s.model.or (some m) } : Solution K L).verify byIndex m.tolerance
      = .ok report) (journal : Journal K L) :
    runFrom (optimize byIndex b settings backend) journal
      = (.ok { s with model := s.model.or (some m) },
          if report.isClean then journal else journal ++ [report]) := by
  unfold optimize Pipeline.run Pipeline.ofBuilder
  simp only [hm, hs, hstatus, hreport, runFrom_bind, Pipeline.ofBuilder.liftExcept, ok_mapError,
    runFrom_pure, Bool.false_eq_true, ↓reduceIte]
  cases report.isClean with
  | true => rfl
  | false => rfl

/-- **Solving is silent exactly on feasible answers.** Let a builder be reached and build, with a
tolerance of at least zero, and let the backend answer with a solution that carries no model or the
one it was given, and with the values of a point for exactly the declared variables, in any order.
Then the run returns, and leaves a report behind if and only if the point violates the builder by
more than the tolerance. -/
theorem optimize_warns_iff [BEq L] {ε : Type} (byIndex : ℕ → L) {b : Builder Extended L}
    {settings : Builder.Settings Extended}
    {backend : CompiledModel Extended L → Except ε (Solution Extended L)}
    {m : CompiledModel Extended L} {s : Solution Extended L} {v : Point} (hb : b.Reachable)
    (hm : b.build settings = .ok m) (ht : Scalar.le Scalar.zero settings.tolerance = true)
    (hs : backend m = .ok s) (hstatus : s.status = .optimal ∨ s.status = .feasible)
    (hmodel : s.model = none ∨ s.model = some m)
    (hvalues : s.values.Perm (b.names.map fun name => (name.text, rational (v name)))) :
    (∃ r, (runFrom (optimize byIndex b settings backend) []).1 = .ok r) ∧
      ((runFrom (optimize byIndex b settings backend) []).2 ≠ [] ↔
        b.ViolatedAt settings.tolerance v) := by
  have hsound := hb.isSound
  have htolerance := (Builder.build_eq_ok.mp hm).2
  obtain ⟨hnames, hproblem⟩ := Builder.isSound_of_build hsound hm
  have hsolution : s.status.hasSolution = true := by
    rcases hstatus with h | h <;> rw [h] <;> rfl
  have hattached : s.model.or (some m) = some m := by
    rcases hmodel with h | h <;> rw [h] <;> rfl
  obtain ⟨d, horder, hmeasures, hverify⟩ := Solution.verify_eq_ok byIndex
    (s := { s with model := s.model.or (some m) }) hproblem hattached hsolution
    (hnames ▸ hvalues) m.tolerance
  have hclean := Violations.isClean_iff byIndex hproblem
    (Builder.isBounded_of_build hsound hm) horder hmeasures (htolerance ▸ ht) v
  rw [← Builder.not_violatedAt_iff hsound hm ht] at hclean
  rw [optimize_eq hm hs hsolution hverify]
  refine ⟨⟨_, rfl⟩, ?_⟩
  by_cases hviolated : b.ViolatedAt settings.tolerance v
  · rw [if_neg fun h => hclean.mp h hviolated]
    exact iff_of_true nofun hviolated
  · rw [if_pos (hclean.mpr hviolated)]
    exact iff_of_false (fun h => h rfl) hviolated

def byNumber (i : ℕ) : String := "#" ++ toString i

/-- A backend that answers with a value for the variable of the sample. -/
def answering (q : ℚ) (_ : CompiledModel Extended String) :
    Except Unit (Solution Extended String) :=
  .ok ⟨.optimal, none, [((VariableName.automatic 1).text, rational q)], [], none⟩

def sampleRun (q : ℚ) :
    Except (RunError Extended String Unit) (Solution Extended String) × Journal Extended String :=
  runFrom (optimize byNumber Builder.sample ⟨some .highs, rational 0⟩ (answering q)) []

/-- Of the sample, which asks for `3·x1 ≥ 6`, the answer 1 is reported and the answer 2 is not. -/
theorem sample_warns : (sampleRun 1).2 ≠ [] ∧ (sampleRun 2).2 = [] := by
  have hok : (Builder.sample.build ⟨some .highs, rational 0⟩).isOk = true := by decide +kernel
  obtain ⟨m, hm⟩ := exists_of_isOk hok
  have hrun := fun q : ℚ => (optimize_warns_iff byNumber (v := fun _ => q)
    Builder.sample_reachable hm rfl (show answering q m = .ok _ from rfl) (.inl rfl) (.inl rfl)
    (.refl _)).2
  constructor
  · rw [sampleRun, hrun]
    refine .inl ⟨_, List.mem_cons_self, ?_⟩
    show Scalar.lt _ _ = true
    decide +kernel
  · rw [← not_not (a := _ = _), ← ne_eq, sampleRun, hrun]
    rintro (⟨c, hc, h⟩ | ⟨x, hx, h⟩ | ⟨x, hx, h, -⟩)
    · cases List.mem_singleton.mp hc
      revert h
      show ¬Scalar.lt _ _ = true
      decide +kernel
    · cases List.mem_singleton.mp hx
      revert h
      show ¬(Scalar.lt _ _ = true ∨ Scalar.lt _ _ = true)
      decide +kernel
    · cases List.mem_singleton.mp hx
      cases h

end LinModel
