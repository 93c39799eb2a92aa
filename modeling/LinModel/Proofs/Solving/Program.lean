import LinModel.Proofs.Compiling.Meaning
import LinModel.Solving.Program

/-!
# A program asks for what the model asks for, but for empty bounds

A program has a relation for every finite end of a range and for every finite bound, and its
variables are boolean or integer. A form lowered from terms has their value, however it is written
down (`lowerCoefficients_eq_ok`), so the relations of a range hold where the terms are in it.

An infinite bound is left out. That is right for a lower bound below and an upper bound above
everything, which exclude nothing. A lower bound above everything and an upper bound below
everything exclude all values, but are left out too: the program of a model with such a bound has
points that the model does not have. They are the only ones (`Builder.build_lowers`).

Key definitions: `Form.HasValue`, `Relation.HoldsAt`, `ProgramVariable.Admits`,
`Program.SatisfiedAt`, `CompiledVariable.HasPossibleBounds`.
Key theorems: `lowerCoefficients_eq_ok`, `lowerConstraint_eq_ok`, `lowerBounds_iff`,
`lowerConstraints_eq_ok`, `forall_lowerBounds_iff`, `Program.ofProblem_eq_ok`,
`Builder.build_lowers`.
-/
namespace LinModel

open Extended

variable {ν L : Type}

/-! ### What programs say -/

/-- The value of a form where handles have rational values. -/
def Form.HasValue (f : Form ν Extended) (a : ν → ℚ) (q : ℚ) : Prop :=
  f.value? (fun h => some (rational (a h))) = some (rational q)

/-- The two sides are equal, or in order. -/
def Relation.HoldsAt (r : Relation ν Extended) (a : ν → ℚ) : Prop :=
  ∃ p q, r.left.HasValue a p ∧ r.right.HasValue a q ∧ if r.isEquation then p = q else p ≤ q

/-- The values that the attributes of a variable allow. -/
def ProgramVariable.Admits (x : ProgramVariable) (q : ℚ) : Prop :=
  (x.isBoolean = true → q = 0 ∨ q = 1) ∧ (x.isInteger = true → ∃ n : ℤ, q = n)

/-- Every relation holds, and every variable has a value that its attributes allow. -/
def Program.SatisfiedAt (p : Program ν Extended L) (attributes : List (ProgramVariable × ν))
    (a : ν → ℚ) : Prop :=
  (∀ r ∈ p.relations, r.HoldsAt a) ∧ ∀ x ∈ attributes, x.1.Admits (a x.2)

/-! ### Forms -/

namespace Form

variable {a : ν → ℚ}

/-- The values of terms, added up. -/
def termsAt (terms : List (ν × Extended)) (a : ν → ℚ) : ℚ :=
  (terms.map fun (h, c) => c.toRat * a h).sum

theorem hasValue_constant (q : ℚ) : (constant (rational q) : Form ν Extended).HasValue a q := rfl

theorem hasValue_handle (h : ν) : (handle h : Form ν Extended).HasValue a (a h) := rfl

theorem hasValue_product (c : ℚ) (h : ν) :
    (product (constant (rational c)) (handle h) : Form ν Extended).HasValue a (c * a h) := rfl

theorem HasValue.unique {f : Form ν Extended} {p q : ℚ} (hp : f.HasValue a p)
    (hq : f.HasValue a q) : p = q := by
  cases hp.symm.trans hq
  rfl

theorem HasValue.add_product {f : Form ν Extended} {q : ℚ} (hf : f.HasValue a q) (c : ℚ) (h : ν) :
    (sum f (product (constant (rational c)) (handle h))).HasValue a (q + c * a h) := by
  unfold HasValue value? at hf ⊢
  rw [valueAfter?, hf]
  rfl

theorem HasValue.add_constant {f : Form ν Extended} {q : ℚ} (hf : f.HasValue a q) (k : ℚ) :
    (sum f (constant (rational k))).HasValue a (q + k) := by
  unfold HasValue value? at hf ⊢
  rw [valueAfter?, hf]
  rfl

theorem HasValue.add_terms : ∀ {terms : List (ν × Extended)} {f : Form ν Extended} {q : ℚ},
    (∀ term ∈ terms, Scalar.isFinite term.2 = true) → f.HasValue a q →
    (terms.foldl (fun total (h, c) => .sum total (.product (.constant c) (.handle h))) f).HasValue a
      (q + termsAt terms a)
  | [], f, q, _, hf => by simpa [termsAt] using hf
  | (h, c) :: terms, f, q, hfin, hf => by
    obtain ⟨hc, hterms⟩ := List.forall_mem_cons.mp hfin
    obtain ⟨c, rfl⟩ := isFinite_iff.mp hc
    have := (hf.add_product c h).add_terms hterms
    rw [List.foldl_cons]
    rwa [add_assoc] at this

/-- **Terms and a constant have the value of their sum**, however they are written down. -/
theorem hasValue_ofTermsAnd {terms : List (ν × Extended)} (k : ℚ)
    (hfin : ∀ term ∈ terms, Scalar.isFinite term.2 = true) :
    (ofTermsAnd terms (rational k)).HasValue a (termsAt terms a + k) := by
  cases terms with
  | nil => simpa [ofTermsAnd, ofTerms, termsAt] using hasValue_constant k
  | cons term terms =>
    obtain ⟨h, c⟩ := term
    obtain ⟨hc, hterms⟩ := List.forall_mem_cons.mp hfin
    obtain ⟨c, rfl⟩ := isFinite_iff.mp hc
    have hsum := (hasValue_product (a := a) c h).add_terms hterms
    have hvalue : c * a h + termsAt terms a = termsAt ((h, rational c) :: terms) a := rfl
    rw [hvalue] at hsum
    by_cases hk : k = 0
    · subst hk
      rw [add_zero]
      exact hsum
    · have hform : ofTermsAnd ((h, rational c) :: terms) (rational k)
          = sum (terms.foldl (fun total (h, c) => .sum total (.product (.constant c) (.handle h)))
              (product (constant (rational c)) (handle h))) (constant (rational k)) := by
        simp [ofTermsAnd, ofTerms, hk]
      rw [hform]
      exact hsum.add_constant k

end Form

/-! ### Relations -/

section Relations

variable {a : ν → ℚ} {f : Form ν Extended} {q : ℚ}

theorem Relation.holdsAt_iff {r : Relation ν Extended} {p q : ℚ} (hp : r.left.HasValue a p)
    (hq : r.right.HasValue a q) :
    r.HoldsAt a ↔ if r.isEquation then p = q else p ≤ q := by
  constructor
  · rintro ⟨p', q', hp', hq', h⟩
    rwa [hp.unique hp', hq.unique hq']
  · exact fun h => ⟨p, q, hp, hq, h⟩

/-- A form is at least a number by its relation, unless that number is above everything. -/
theorem atLeast_iff (hf : f.HasValue a q) {low : Extended} (hlow : Scalar.isNaN low = false) :
    (∀ r ∈ atLeast f low, r.HoldsAt a) ∧ low ≠ infinite false ↔
      Scalar.le low (rational q) = true := by
  rcases isNaN_cases hlow with ⟨p, rfl⟩ | ⟨s, rfl⟩
  · have hlist : atLeast f (rational p) = [⟨false, .constant (rational p), f⟩] := rfl
    rw [hlist, List.forall_mem_singleton, Relation.holdsAt_iff (Form.hasValue_constant p) hf]
    simp
  · have hlist : atLeast f (infinite s) = [] := rfl
    rw [hlist]
    cases s with
    | false => exact iff_of_false (fun h => h.2 rfl) nofun
    | true => exact iff_of_true ⟨nofun, nofun⟩ rfl

/-- A form is at most a number by its relation, unless that number is below everything. -/
theorem atMost_iff (hf : f.HasValue a q) {high : Extended} (hhigh : Scalar.isNaN high = false) :
    (∀ r ∈ atMost f high, r.HoldsAt a) ∧ high ≠ infinite true ↔
      Scalar.le (rational q) high = true := by
  rcases isNaN_cases hhigh with ⟨p, rfl⟩ | ⟨s, rfl⟩
  · have hlist : atMost f (rational p) = [⟨false, f, .constant (rational p)⟩] := rfl
    rw [hlist, List.forall_mem_singleton, Relation.holdsAt_iff hf (Form.hasValue_constant p)]
    simp
  · have hlist : atMost f (infinite s) = [] := rfl
    rw [hlist]
    cases s with
    | false => exact iff_of_true ⟨nofun, nofun⟩ rfl
    | true => exact iff_of_false (fun h => h.2 rfl) nofun

end Relations

/-! ### Lowering -/

section Lowering

variable {handle? : String → Option ν} {names : List VariableName}

/-- Every name has a handle with its value. -/
def Agree (handle? : String → Option ν) (names : List VariableName) (a : ν → ℚ) (v : Point) :
    Prop :=
  ∀ name ∈ names, ∃ h, handle? name.text = some h ∧ a h = v name

theorem lowerTerms_eq_ok (hn : ∀ name ∈ names, ∃ h, handle? name.text = some h) :
    ∀ {cs : Coefficients Extended}, cs.AreFinite → cs.keys ⊆ names →
    ∃ terms, lowerTerms handle? cs.texts = .ok terms ∧
      (∀ term ∈ terms, Scalar.isFinite term.2 = true) ∧
      ∀ a v, Agree handle? names a v → Form.termsAt terms a = cs.termsAt v
  | [], _, _ => ⟨[], rfl, nofun, fun _ _ _ => rfl⟩
  | (name, c) :: cs, hcs, hsub => by
    obtain ⟨q, rfl⟩ := hcs.head
    obtain ⟨hname, hrest⟩ := List.cons_subset.mp hsub
    obtain ⟨h, hh⟩ := hn name hname
    obtain ⟨terms, hterms, hfin, hvalue⟩ := lowerTerms_eq_ok hn hcs.tail hrest
    refine ⟨(h, rational q) :: terms, ?_, List.forall_mem_cons.mpr ⟨rfl, hfin⟩,
      fun a v hagree => ?_⟩
    · unfold lowerTerms at hterms ⊢
      unfold Coefficients.texts at hterms ⊢
      rw [List.map_cons, List.mapM_cons, hterms]
      simp only [hh]
      rfl
    · obtain ⟨h', hh', ha⟩ := hagree name hname
      cases hh.symm.trans hh'
      have hsum : Form.termsAt ((h, rational q) :: terms) a = q * a h + Form.termsAt terms a := rfl
      rw [hsum, hvalue a v hagree, ha, Coefficients.termsAt_cons, toRat_rational]

/-- **A lowered form has the value of its terms and its constant.** -/
theorem lowerCoefficients_eq_ok (hn : ∀ name ∈ names, ∃ h, handle? name.text = some h)
    {cs : Coefficients Extended} (hcs : cs.AreOver names) (k : ℚ) :
    ∃ f, lowerCoefficients handle? cs.texts (rational k) = .ok f ∧
      ∀ a v, Agree handle? names a v → f.HasValue a (cs.termsAt v + k) := by
  obtain ⟨terms, hterms, hfin, hvalue⟩ := lowerTerms_eq_ok hn hcs.finite hcs.known
  refine ⟨Form.ofTermsAnd terms (rational k), by simp [lowerCoefficients, hterms],
    fun a v hagree => ?_⟩
  rw [← hvalue a v hagree]
  exact Form.hasValue_ofTermsAnd k hfin

/-- Numbers that are equal, the first not above and the second not below everything, are one
rational. -/
theorem eq_rational_of_beq {x y : Extended} (h : Scalar.beq x y = true) (hx : x ≠ infinite false)
    (hy : y ≠ infinite true) : ∃ b, x = rational b ∧ y = rational b :=
  match x, y with
  | .rational p, .rational q => ⟨p, rfl, congrArg rational (of_decide_eq_true h).symm⟩
  | .infinite false, _ => absurd rfl hx
  | .infinite true, .infinite true => absurd rfl hy
  | .infinite true, .infinite false | .infinite true, .rational _ | .rational _, .infinite _ => by
    cases h
  | .infinite true, .notANumber | .rational _, .notANumber | .notANumber, _ => by cases h

/-- **The relations of a range hold where the terms are in it.** The range is not empty by an
infinity. -/
theorem lowerConstraint_eq_ok (hn : ∀ name ∈ names, ∃ h, handle? name.text = some h)
    {c : CompiledConstraint Extended L} (hc : c.coefficients.AreOver names)
    (hlower : Scalar.isNaN c.lower = false) (hupper : Scalar.isNaN c.upper = false)
    (hlow : c.lower ≠ infinite false) (hhigh : c.upper ≠ infinite true) :
    ∃ rs, lowerConstraint handle? c.coefficients.texts c.lower c.upper = .ok rs ∧
      ∀ a v, Agree handle? names a v → ((∀ r ∈ rs, r.HoldsAt a) ↔ c.HoldsAt v) := by
  obtain ⟨f, hf, hvalue⟩ := lowerCoefficients_eq_ok hn hc 0
  simp only [add_zero] at hvalue
  unfold lowerConstraint CompiledConstraint.HoldsAt
  rw [scalar_zero, hf, ok_bind]
  by_cases heq : Scalar.beq c.lower c.upper = true
  · -- equal ends are neither infinity, so the range is one number
    obtain ⟨b, hb, hb'⟩ := eq_rational_of_beq heq hlow hhigh
    rw [if_pos heq]
    refine ⟨_, rfl, fun a v hagree => ?_⟩
    have hq := hvalue a v hagree
    rw [hb, hb', List.forall_mem_singleton, Relation.holdsAt_iff hq (Form.hasValue_constant b),
      Coefficients.activityAt_eq v hc.finite, le_rational, le_rational, decide_eq_true_eq,
      decide_eq_true_eq]
    exact ⟨fun h => ⟨h.ge, h.le⟩, fun h => le_antisymm h.2 h.1⟩
  · rw [if_neg heq]
    refine ⟨_, rfl, fun a v hagree => ?_⟩
    have hq := hvalue a v hagree
    rw [List.forall_mem_append, Coefficients.activityAt_eq v hc.finite, ← atLeast_iff hq hlower,
      ← atMost_iff hq hupper]
    exact ⟨fun h => ⟨⟨h.1, hlow⟩, h.2, hhigh⟩, fun h => ⟨h.1.1, h.2.1⟩⟩

/-- A lower bound below everything or finite, and an upper bound above everything or finite. -/
def CompiledVariable.HasPossibleBounds (x : CompiledVariable Extended) : Prop :=
  x.lower ≠ infinite false ∧ x.upper ≠ infinite true

/-- **The relations and attributes of a variable admit what it admits**, if its bounds are
possible. -/
theorem lowerBounds_iff {x : CompiledVariable Extended} {h : ν} {a : ν → ℚ} {v : Point}
    (hlower : Scalar.isNaN x.lower = false) (hupper : Scalar.isNaN x.upper = false)
    (hboolean : x.kind = .boolean → x.lower = rational 0 ∧ x.upper = rational 1)
    (ha : a h = v x.name) :
    ((∀ r ∈ lowerBounds x h, r.HoldsAt a) ∧ x.programVariable.Admits (a h)) ∧ x.HasPossibleBounds
      ↔ x.AdmitsAt v := by
  have hvalue : (Form.handle h : Form ν Extended).HasValue a (v x.name) := by
    rw [← ha]
    exact Form.hasValue_handle h
  unfold lowerBounds CompiledVariable.programVariable ProgramVariable.Admits
    CompiledVariable.AdmitsAt CompiledVariable.HasPossibleBounds
  rw [ha]
  cases hk : x.kind with
  | boolean =>
    obtain ⟨hl, hu⟩ := hboolean hk
    have hunit : v x.name = 0 ∨ v x.name = 1 → 0 ≤ v x.name ∧ v x.name ≤ 1 := by
      rintro (h | h) <;> rw [h] <;> norm_num
    rw [hl, hu]
    simpa [VariableKind.Admits] using hunit
  | integer =>
    rw [← atLeast_iff hvalue hlower, ← atMost_iff hvalue hupper, List.forall_mem_append]
    simp only [VariableKind.Admits, beq_iff_eq, reduceCtorEq, beq_self_eq_true, false_implies,
      true_implies, true_and]
    tauto
  | numeric =>
    rw [← atLeast_iff hvalue hlower, ← atMost_iff hvalue hupper, List.forall_mem_append]
    simp only [VariableKind.Admits, beq_iff_eq, reduceCtorEq, false_implies, true_and, and_true]
    tauto

end Lowering

/-! ### The whole program -/

/-- The handle that a program has for a text. -/
def Problem.handle? (p : Problem Extended L) (handles : List ν) (name : String) : Option ν :=
  Entries.find? name (Entries.ofList ((p.vars.zip handles).map fun (x, h) => (x.name.text, h)))

/-- The values of handles are those of the variables. -/
def Problem.HandlesAgree (p : Problem Extended L) (handles : List ν) (a : ν → ℚ) (v : Point) :
    Prop :=
  ∀ x ∈ p.vars.zip handles, a x.2 = v x.1.name

section Whole

variable {p : Problem Extended L} {handles : List ν}

/-- Different variables have their handles under different texts. -/
theorem nodup_keys_handles (hs : p.IsSound) (hlen : handles.length = p.vars.length) :
    (Entries.keys ((p.vars.zip handles).map fun (x, h) => (x.name.text, h))).Nodup := by
  have htexts : Entries.keys ((p.vars.zip handles).map fun (x, h) => (x.name.text, h))
      = ((p.vars.zip handles).map Prod.fst).map fun x => x.name.text := by
    simp [Entries.keys, Function.comp_def]
  rw [htexts, List.map_fst_zip hlen.ge]
  have hnames := hs.names_nodup.map fun _ _ => VariableName.eq_of_text_eq
  rwa [Problem.names, List.map_map] at hnames

theorem handle?_eq (hs : p.IsSound) (hlen : handles.length = p.vars.length)
    {x : CompiledVariable Extended × ν} (hx : x ∈ p.vars.zip handles) :
    p.handle? handles x.1.name.text = some x.2 := by
  have hkeys := nodup_keys_handles hs hlen
  rw [Problem.handle?, Entries.ofList_of_nodup hkeys]
  exact Entries.find?_eq_some_of_mem hkeys
    (List.mem_map_of_mem (f := fun (x, h) => (x.name.text, h)) hx)

theorem exists_handle (hlen : handles.length = p.vars.length) {name : VariableName}
    (hname : name ∈ p.names) : ∃ x ∈ p.vars.zip handles, x.1.name = name := by
  rw [Problem.names, ← List.map_fst_zip hlen.ge, List.map_map] at hname
  obtain ⟨x, hx, rfl⟩ := List.mem_map.mp hname
  exact ⟨x, hx, rfl⟩

theorem forall_mem_zip_fst (hlen : handles.length = p.vars.length)
    {P : CompiledVariable Extended → Prop} :
    (∀ x ∈ p.vars, P x) ↔ ∀ x ∈ p.vars.zip handles, P x.1 := by
  have hfst : (p.vars.zip handles).map Prod.fst = p.vars := List.map_fst_zip hlen.ge
  have hmap : (∀ x ∈ (p.vars.zip handles).map Prod.fst, P x) ↔ ∀ x ∈ p.vars.zip handles, P x.1 :=
    List.forall_mem_map
  rwa [hfst] at hmap

theorem exists_handle? (hs : p.IsSound) (hlen : handles.length = p.vars.length) :
    ∀ name ∈ p.names, ∃ h, p.handle? handles name.text = some h := by
  intro name hname
  obtain ⟨x, hx, rfl⟩ := exists_handle hlen hname
  exact ⟨x.2, handle?_eq hs hlen hx⟩

theorem Problem.HandlesAgree.agree (hs : p.IsSound) (hlen : handles.length = p.vars.length)
    {a : ν → ℚ} {v : Point} (ha : p.HandlesAgree handles a v) :
    Agree (p.handle? handles) p.names a v := by
  intro name hname
  obtain ⟨x, hx, rfl⟩ := exists_handle hlen hname
  exact ⟨x.2, handle?_eq hs hlen hx, ha x hx⟩

/-- The constraints have groups of relations, which hold where the constraints do. -/
theorem lowerConstraints_eq_ok (hs : p.IsSound) (hb : p.IsBounded)
    (hlen : handles.length = p.vars.length) :
    ∃ groups : List (Option L × List (Relation ν Extended)),
      (p.constraints.mapM fun c => do
        return (c.label,
          ← lowerConstraint (p.handle? handles) c.coefficients.texts c.lower c.upper))
        = .ok groups ∧
      ∀ a v, p.HandlesAgree handles a v →
        ((∀ r ∈ groups.flatMap Prod.snd, r.HoldsAt a) ↔ ∀ c ∈ p.constraints, c.HoldsAt v) := by
  have hgroup : ∀ c ∈ p.constraints, ∃ g : Option L × List (Relation ν Extended),
      (do return (c.label,
        ← lowerConstraint (p.handle? handles) c.coefficients.texts c.lower c.upper)) = .ok g ∧
      ∀ a v, p.HandlesAgree handles a v → (c.HoldsAt v ↔ ∀ r ∈ g.2, r.HoldsAt a) := by
    intro c hc
    obtain ⟨hlower, hupper, hlow, hhigh⟩ := hb.constraints c hc
    obtain ⟨rs, hrs, hiff⟩ := lowerConstraint_eq_ok (exists_handle? hs hlen)
      (hs.constraints c hc) hlower hupper hlow hhigh
    exact ⟨(c.label, rs), by rw [hrs]; rfl, fun a v ha => (hiff a v (ha.agree hs hlen)).symm⟩
  obtain ⟨groups, hgroups⟩ := exists_forall₂ hgroup
  refine ⟨groups, mapM_eq_ok.mpr (hgroups.imp fun _ _ h => h.1), fun a v ha => ?_⟩
  rw [List.forall_mem_flatMap]
  exact (forall_mem_congr hgroups fun c g h => h.2 a v ha).symm

theorem lowerObjective_eq_ok (hs : p.IsSound) (hlen : handles.length = p.vars.length) :
    ∃ f, lowerObjective (p.handle? handles) p.objective.coefficients.texts p.objective.offset
        p.objective.goal = .ok ⟨p.objective.goal, f⟩ ∧
      ∀ a v, p.HandlesAgree handles a v →
        ∃ q, f.HasValue a q ∧ p.objective.valueAt v = rational q := by
  obtain ⟨k, hk⟩ := isFinite_iff.mp hs.offset
  obtain ⟨f, hf, hvalue⟩ :=
    lowerCoefficients_eq_ok (exists_handle? hs hlen) hs.objective k
  rw [hk]
  refine ⟨f, by rw [lowerObjective, hf]; rfl, fun a v ha =>
    ⟨_, hvalue a v (ha.agree hs hlen), ?_⟩⟩
  rw [CompiledObjective.valueAt, Coefficients.activityAt_eq v hs.objective.finite, hk,
    rational_add]

/-- The bounds and attributes of all variables admit what the variables admit, if the bounds are
possible. -/
theorem forall_lowerBounds_iff (hb : p.IsBounded) (hlen : handles.length = p.vars.length)
    {a : ν → ℚ} {v : Point} (ha : p.HandlesAgree handles a v) :
    ((∀ r ∈ (p.vars.zip handles).flatMap fun (x, h) => lowerBounds x h, r.HoldsAt a) ∧
        ∀ x ∈ (p.vars.map CompiledVariable.programVariable).zip handles, x.1.Admits (a x.2)) ∧
      (∀ x ∈ p.vars, x.HasPossibleBounds) ↔ ∀ x ∈ p.vars, x.AdmitsAt v := by
  have hiff := fun x (hx : x ∈ p.vars.zip handles) =>
    let ⟨hlower, hupper, hboolean⟩ := hb.vars x.1 (List.of_mem_zip hx).1
    lowerBounds_iff hlower hupper hboolean (ha x hx)
  rw [List.forall_mem_flatMap, List.zip_map_left, List.forall_mem_map,
    forall_mem_zip_fst hlen, forall_mem_zip_fst hlen]
  constructor
  · rintro ⟨⟨hrelations, hattributes⟩, hpossible⟩ x hx
    exact (hiff x hx).mp ⟨⟨hrelations x hx, hattributes x hx⟩, hpossible x hx⟩
  · intro h
    have hall := fun x hx => (hiff x hx).mpr (h x hx)
    exact ⟨⟨fun x hx => (hall x hx).1.1, fun x hx => (hall x hx).1.2⟩,
      fun x hx => (hall x hx).2⟩

/-- **A sound problem has a program.** The points of the problem are those of the program, if the
bounds of all variables are possible, and the objective has the same direction and value. -/
theorem Program.ofProblem_eq_ok (hs : p.IsSound) (hb : p.IsBounded)
    (hlen : handles.length = p.vars.length) :
    ∃ program, ofProblem handles p = .ok program ∧ program.objective.goal = p.objective.goal ∧
      ∀ a v, p.HandlesAgree handles a v →
        (p.SatisfiedAt v ↔
          program.SatisfiedAt ((p.vars.map CompiledVariable.programVariable).zip handles) a ∧
            ∀ x ∈ p.vars, x.HasPossibleBounds) ∧
        ∃ q, program.objective.expression.HasValue a q ∧ p.objective.valueAt v = rational q := by
  obtain ⟨groups, hgroups, hconstraints⟩ := lowerConstraints_eq_ok hs hb hlen
  obtain ⟨f, hf, hvalue⟩ := lowerObjective_eq_ok hs hlen
  have hprogram : ofProblem handles p = .ok ⟨Entries.ofList
      ((p.vars.zip handles).map fun (x, h) => (x.name.text, h)),
      (p.vars.zip handles).flatMap fun (x, h) => lowerBounds x h, groups,
      ⟨p.objective.goal, f⟩⟩ := by
    unfold ofProblem
    exact bind_eq_ok.mpr ⟨groups, hgroups, bind_eq_ok.mpr ⟨_, hf, rfl⟩⟩
  refine ⟨_, hprogram, rfl, fun a v ha => ⟨?_, hvalue a v ha⟩⟩
  rw [Problem.SatisfiedAt, SatisfiedAt, relations, List.forall_mem_append, hconstraints a v ha,
    ← forall_lowerBounds_iff hb hlen ha]
  tauto

end Whole

namespace Builder

variable {b : Builder Extended L} {settings : Settings Extended} {m : CompiledModel Extended L}
  {handles : List ν}

/-- **A model that is built has a program.** The points of the model are those of the program, if
the bounds of all variables are possible, and the objective has the same direction and value. -/
theorem build_lowers (hb : b.Reachable) (hm : b.build settings = .ok m)
    (hlen : handles.length = m.vars.length) :
    ∃ program, Program.ofProblem handles m.toProblem = .ok program ∧
      program.objective.goal = m.objective.goal ∧
      ∀ a v, m.HandlesAgree handles a v →
        (m.SatisfiedAt v ↔
          program.SatisfiedAt ((m.vars.map CompiledVariable.programVariable).zip handles) a ∧
            ∀ x ∈ m.vars, x.HasPossibleBounds) ∧
        ∃ q, program.objective.expression.HasValue a q ∧ m.objective.valueAt v = rational q := by
  obtain ⟨-, hproblem⟩ := isSound_of_build hb.isSound hm
  exact Program.ofProblem_eq_ok hproblem (isBounded_of_build hb.isSound hm) hlen

/-- The program of the depot has the points of its model. -/
theorem depot_lowers : ∃ m program, depot.build ⟨some .highs, rational 0⟩ = .ok m ∧
    Program.ofProblem [1, 2, 3] m.toProblem = .ok program ∧ program.objective.goal = .max ∧
    ∀ a v, m.HandlesAgree [1, 2, 3] a v → (m.SatisfiedAt v ↔
      program.SatisfiedAt ((m.vars.map CompiledVariable.programVariable).zip [1, 2, 3]) a) := by
  have hbuilt : (depot.build ⟨some .highs, rational 0⟩).toOption.map (fun m =>
      (m.objective.goal, m.vars.map fun x => (x.lower, x.upper)))
      = some (.max, [(rational 0, rational 1), (rational 0, rational 10),
          (rational (-5), infinite false)]) := by
    decide +kernel
  obtain ⟨m, hm, hbuilt⟩ := Option.map_eq_some_iff.mp hbuilt
  obtain ⟨hmax, hends⟩ := Prod.mk.inj hbuilt
  have hm := toOption_eq_some.mp hm
  have hlen : [1, 2, 3].length = m.vars.length :=
    (vars_of_build depot_reachable.isSound hm).length_eq
  obtain ⟨program, hprogram, hgoal, hpoints⟩ := build_lowers depot_reachable hm hlen
  have hpossible : ∀ x ∈ m.vars, x.HasPossibleBounds := by
    have hall : ∀ e ∈ m.vars.map fun x => (x.lower, x.upper),
        e.1 ≠ infinite false ∧ e.2 ≠ infinite true := by
      rw [hends]
      decide
    exact fun x hx => hall _ (List.mem_map_of_mem hx)
  refine ⟨m, program, hm, hprogram, hgoal.trans hmax, fun a v ha => ?_⟩
  rw [(hpoints a v ha).1]
  exact and_iff_left hpossible

/-- A variable with a lower bound above everything, `x1 ≥ 0`, and `x1` to be made small. -/
def impossible : Builder Extended String :=
  let declared := after (declare .numeric none (some (infinite false)) none) empty
  let related := after (relate (.expression (.term (.automatic 1) (rational 1)))
    (.number (rational 0)) .ge none) declared
  after (setObjective (.expression (.term (.automatic 1) (rational 1))) .min) related

theorem impossible_reachable : impossible.Reachable := by
  have hterm : (Operand.expression (.term (.automatic 1) (rational 1))).IsSound :=
    .expression (Expression.isSound_term _ 1)
  exact .step (.step (.step (.refl _) (.declare _ _ _ _ _))
    (.relate _ hterm (.number _) _ _)) (.setObjective _ hterm _)

/-- No point satisfies the model of the impossible builder, but zero satisfies its program. -/
theorem impossible_lowers : impossible.Reachable ∧
    ∃ m program, impossible.build ⟨some .highs, rational 0⟩ = .ok m ∧
      Program.ofProblem [()] m.toProblem = .ok program ∧ (∀ v, ¬m.SatisfiedAt v) ∧
      program.SatisfiedAt ((m.vars.map CompiledVariable.programVariable).zip [()]) fun _ => 0 := by
  refine ⟨impossible_reachable, _, _, rfl, rfl, fun v h => ?_, ?_, ?_⟩
  · obtain ⟨-, h, -⟩ := h.2 _ List.mem_cons_self
    cases h
  · intro r hr
    cases List.mem_singleton.mp hr
    refine ⟨0, 0, ?_, ?_, le_rfl⟩
    · unfold Form.HasValue
      decide +kernel
    · unfold Form.HasValue
      decide +kernel
  · intro x hx
    cases List.mem_singleton.mp hx
    exact ⟨nofun, nofun⟩

end Builder
end LinModel
