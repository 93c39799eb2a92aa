import LinModel.Proofs.Compiling.Meaning
import LinModel.Proofs.Dense.Parts
import LinModel.Solving.Program

/-!
# A model that is built can be lowered

A builder may fail to build, but what it builds can be lowered: to a dense form, and to a program
with one relation for each constraint (`Builder.build_lowerable`). That holds for any numbers whose
finite ones are ordered between the infinities, whatever else is rounded.

Lowering fails for a name that no variable has and, to a dense form, for a number that is not finite
(`Program.exists_ofProblem_iff`, `DenseModel.exists_ofProblem_iff`). Neither is left in a proper
problem (`Problem.IsProper`), and every model that is built is one. Its constraints are ranges of
one relationship with a finite bound, so both ends are equal or exactly one is finite
(`Relationship.range_beq_iff`), and either way there is one relation
(`lowerConstraint_range_eq_ok`).

Key definitions: `Coefficients.AreProper`, `Problem.IsProper`, `CompiledConstraint.IsRangeOf`.
Key theorems: `Program.exists_ofProblem_iff`, `Relationship.range_ordered`,
`lowerConstraint_range_eq_ok`, `Builder.isProper_of_build`, `Builder.forall₂_relation_of_build`,
`Builder.build_lowerable`.
-/
namespace LinModel

open Extended

variable {K L ν : Type} [Scalar K]

/-! ### Programs -/

section Programs

variable {handle? : String → Option ν} {cs : Coefficients K}

omit [Scalar K] in
theorem exists_lowerTerms_iff :
    (∃ terms, lowerTerms handle? cs.texts = .ok terms) ↔
      ∀ name ∈ cs.keys, ∃ h, handle? name.text = some h := by
  unfold lowerTerms
  rw [exists_mapM_eq_ok_iff, Entries.keys, Coefficients.texts, List.forall_mem_map,
    List.forall_mem_map]
  refine forall₂_congr fun entry _ => ?_
  dsimp only
  cases handle? entry.1.text with
  | some h => exact iff_of_true ⟨_, rfl⟩ ⟨h, rfl⟩
  | none => exact iff_of_false (by rintro ⟨term, ⟨⟩⟩) (by rintro ⟨h, ⟨⟩⟩)

omit [Scalar K] in
/-- Terms are not lowered where a name has no handle, and such a name is to blame. -/
theorem lowerTerms_fails (h : ∃ name ∈ cs.keys, handle? name.text = none) :
    ∃ name ∈ cs.keys, handle? name.text = none ∧
      lowerTerms handle? cs.texts = .error ⟨name.text⟩ := by
  cases hterms : lowerTerms handle? cs.texts with
  | ok terms =>
    obtain ⟨name, hname, hnone⟩ := h
    obtain ⟨handle, hhandle⟩ := exists_lowerTerms_iff.mp ⟨terms, hterms⟩ name hname
    cases hnone.symm.trans hhandle
  | error e =>
    obtain ⟨text, htext, he⟩ := exists_of_mapM_eq_error hterms
    obtain ⟨⟨name, c⟩, hentry, rfl⟩ := List.mem_map.mp htext
    dsimp only at he
    cases hhandle : handle? name.text with
    | some handle =>
      rw [hhandle] at he
      cases he
    | none =>
      rw [hhandle] at he
      cases he
      exact ⟨name, List.mem_map_of_mem hentry, hhandle, rfl⟩

theorem exists_lowerCoefficients_iff {constant : K} :
    (∃ f, lowerCoefficients handle? cs.texts constant = .ok f) ↔
      ∀ name ∈ cs.keys, ∃ h, handle? name.text = some h := by
  unfold lowerCoefficients
  rw [exists_bind_pure_eq_ok_iff, exists_lowerTerms_iff]

theorem exists_lowerConstraint_iff {lower upper : K} :
    (∃ rs, lowerConstraint handle? cs.texts lower upper = .ok rs) ↔
      ∀ name ∈ cs.keys, ∃ h, handle? name.text = some h := by
  unfold lowerConstraint
  rw [← and_true (∀ name ∈ cs.keys, _), ← exists_lowerCoefficients_iff]
  refine exists_bind_eq_ok_iff fun f => iff_of_true ?_ trivial
  by_cases hends : Scalar.beq lower upper = true
  · exact ⟨_, if_pos hends⟩
  · exact ⟨_, if_neg hends⟩

theorem exists_lowerObjective_iff {offset : K} {goal : Goal} :
    (∃ o, lowerObjective handle? cs.texts offset goal = .ok o) ↔
      ∀ name ∈ cs.keys, ∃ h, handle? name.text = some h := by
  unfold lowerObjective
  rw [exists_bind_pure_eq_ok_iff, exists_lowerCoefficients_iff]

/-- The handles of the variables, under the texts of their names. -/
def Problem.handlesByText (p : Problem K L) (handles : List ν) : Entries String ν :=
  Entries.ofList ((p.vars.zip handles).map fun (x, h) => (x.name.text, h))

variable {p : Problem K L} {handles : List ν}

omit [Scalar K] in
/-- The handles of the variables stand under the texts of the names, in order. -/
theorem Problem.keys_handles (hlen : handles.length = p.vars.length) :
    Entries.keys ((p.vars.zip handles).map fun (x, h) => (x.name.text, h))
      = p.names.map (·.text) := by
  calc Entries.keys ((p.vars.zip handles).map fun (x, h) => (x.name.text, h))
      = ((p.vars.zip handles).map Prod.fst).map fun x => x.name.text := by
        rw [Entries.keys, List.map_map, List.map_map]
        rfl
    _ = p.names.map (·.text) := by
        rw [List.map_fst_zip (Nat.le_of_eq hlen.symm), Problem.names, List.map_map]
        rfl

omit [Scalar K] in
/-- With a handle for each variable, the names that have one are those of the variables. -/
theorem exists_handle?_iff_mem_names (hlen : handles.length = p.vars.length)
    {name : VariableName} :
    (∃ h, (p.handlesByText handles).find? name.text = some h) ↔ name ∈ p.names := by
  rw [Problem.handlesByText, Entries.exists_find?_ofList_iff, Problem.keys_handles hlen,
    text_mem_map_iff]

/-- **A problem has a program** if all its terms have names of variables. -/
theorem Program.exists_ofProblem_iff (hlen : handles.length = p.vars.length) :
    (∃ program, ofProblem handles p = .ok program) ↔
      (∀ c ∈ p.constraints, c.coefficients.keys ⊆ p.names) ∧
        p.objective.coefficients.keys ⊆ p.names := by
  have hterms : ∀ cs : Coefficients K, (∀ name ∈ cs.keys, ∃ h,
      (p.handlesByText handles).find? name.text = some h) ↔ cs.keys ⊆ p.names :=
    fun cs => forall₂_congr fun name _ => exists_handle?_iff_mem_names hlen
  unfold ofProblem
  refine Iff.trans (exists_bind_eq_ok_iff fun groups => exists_bind_pure_eq_ok_iff) ?_
  rw [exists_mapM_eq_ok_iff]
  refine and_congr (forall₂_congr fun c _ => ?_) (exists_lowerObjective_iff.trans (hterms _))
  rw [exists_bind_pure_eq_ok_iff, exists_lowerConstraint_iff]
  exact hterms _

/-- The groups of a program are what the constraints are lowered to, under their labels. -/
theorem Program.ofProblem_groups {program : Program ν K L}
    (h : ofProblem handles p = .ok program) :
    List.Forall₂ (fun c group => c.label = group.1 ∧
        lowerConstraint (Entries.find? · (p.handlesByText handles)) c.coefficients.texts c.lower
          c.upper = .ok group.2)
      p.constraints program.groups := by
  obtain ⟨groups, hgroups, h⟩ := bind_eq_ok.mp h
  obtain ⟨o, -, h⟩ := bind_eq_ok.mp h
  cases h
  refine (mapM_eq_ok.mp hgroups).imp fun c group hgroup => ?_
  obtain ⟨rs, hrs, hgroup⟩ := bind_eq_ok.mp hgroup
  cases hgroup
  exact ⟨rfl, hrs⟩

end Programs

/-! ### Ranges -/

section Ranges

variable [Scalar.LawfulBounds K]

open Scalar.LawfulBounds

theorem Relationship.range_ordered (r : Relationship) {bound : K}
    (h : Scalar.isFinite bound = true) :
    Scalar.le (r.range bound).1 (r.range bound).2 = true ∧
      (Scalar.isFinite (r.range bound).1 = true ∨ Scalar.isFinite (r.range bound).2 = true) := by
  cases r with
  | eq => exact ⟨le_self h, .inl h⟩
  | ge => exact ⟨le_infinity h, .inl h⟩
  | le => exact ⟨neg_infinity_le h, .inr h⟩

theorem Relationship.range_beq_iff (r : Relationship) {bound : K}
    (h : Scalar.isFinite bound = true) :
    Scalar.beq (r.range bound).1 (r.range bound).2 = true ↔ r = .eq := by
  cases r with
  | eq => exact iff_of_true (beq_self h) rfl
  | ge =>
    refine iff_of_false (fun hbeq => ?_) (by decide)
    have hinfinite := isFinite_eq_of_beq hbeq
    simp [range, h, isFinite_infinity] at hinfinite
  | le =>
    refine iff_of_false (fun hbeq => ?_) (by decide)
    have hinfinite := isFinite_eq_of_beq hbeq
    simp [range, h, isFinite_neg_infinity] at hinfinite

theorem lowerConstraint_range_eq_ok {handle? : String → Option ν} {cs : List (String × K)}
    {r : Relationship} {bound : K} {rs : List (Relation ν K)} (h : Scalar.isFinite bound = true)
    (hrs : lowerConstraint handle? cs (r.range bound).1 (r.range bound).2 = .ok rs) :
    ∃ relation, rs = [relation] := by
  obtain ⟨f, -, hrs⟩ := bind_eq_ok.mp hrs
  have hends := r.range_beq_iff h
  cases r with
  | eq =>
    rw [if_pos (hends.mpr rfl)] at hrs
    cases hrs
    exact ⟨_, rfl⟩
  | ge =>
    rw [if_neg fun hbeq => absurd (hends.mp hbeq) (by decide)] at hrs
    simp only [Relationship.range, atLeast, atMost, h, isFinite_infinity, ↓reduceIte] at hrs
    cases hrs
    exact ⟨_, rfl⟩
  | le =>
    rw [if_neg fun hbeq => absurd (hends.mp hbeq) (by decide)] at hrs
    simp only [Relationship.range, atLeast, atMost, h, isFinite_neg_infinity, ↓reduceIte] at hrs
    cases hrs
    exact ⟨_, rfl⟩

end Ranges

/-! ### Models that are built -/

/-- Terms of known names, each with a finite coefficient other than zero. -/
def Coefficients.AreProper (cs : Coefficients K) (known : List VariableName) : Prop :=
  ∀ entry ∈ cs, entry.1 ∈ known ∧ Scalar.isFinite entry.2 = true ∧
    Scalar.beq entry.2 Scalar.zero = false

variable {p : Problem K L}

/-- What lowerings rely on: different variables with ordered bounds, and ordered ranges with a
finite end for proper terms. -/
structure Problem.IsProper (p : Problem K L) : Prop where
  names_nodup : p.names.Nodup
  vars : ∀ x ∈ p.vars, Scalar.le x.lower x.upper = true ∧ Scalar.isNaN x.lower = false ∧
    Scalar.isNaN x.upper = false
  terms : ∀ c ∈ p.constraints, c.coefficients.AreProper p.names
  ranges : ∀ c ∈ p.constraints, Scalar.le c.lower c.upper = true ∧
    (Scalar.isFinite c.lower = true ∨ Scalar.isFinite c.upper = true)
  objective : p.objective.coefficients.AreProper p.names
  offset : Scalar.isFinite p.objective.offset = true

/-- A compiled constraint has the label and the relationship of a constraint, and a finite bound. -/
structure CompiledConstraint.IsRangeOf (c : Constraint K L) (c' : CompiledConstraint K L) :
    Prop where
  label : c'.label = c.label
  range : ∃ bound, Scalar.isFinite bound = true ∧ c'.lower = (c.relationship.range bound).1 ∧
    c'.upper = (c.relationship.range bound).2

theorem Coefficients.areProper_nonzero {cs : Coefficients K}
    {known : List VariableName} (h : cs.nonzero.AreOver known) : cs.nonzero.AreProper known := by
  intro entry hentry
  have hnonzero : (!Scalar.beq entry.2 Scalar.zero) = true := (List.mem_filter.mp hentry).2
  exact ⟨h.known (List.mem_map_of_mem hentry), h.finite entry hentry,
    Bool.not_eq_true' _ ▸ hnonzero⟩

theorem Coefficients.AreProper.keys_subset {cs : Coefficients K} {known : List VariableName}
    (h : cs.AreProper known) : cs.keys ⊆ known :=
  List.forall_mem_map.mpr fun entry hentry => (h entry hentry).1

theorem Coefficients.AreProper.areFinite {cs : Coefficients K} {known : List VariableName}
    (h : cs.AreProper known) : cs.AreFinite :=
  fun entry hentry => (h entry hentry).2.1

theorem Problem.IsProper.exists_dense [Scalar.LawfulUnits K] (h : p.IsProper) :
    ∃ d, DenseModel.ofProblem p = .ok d :=
  DenseModel.exists_ofProblem_iff.mpr ⟨fun c hc => ⟨(h.terms c hc).keys_subset,
    (h.terms c hc).areFinite⟩, h.objective.keys_subset, h.objective.areFinite, h.offset⟩

theorem Problem.IsProper.exists_program (h : p.IsProper) {handles : List ν}
    (hlen : handles.length = p.vars.length) :
    ∃ program, Program.ofProblem handles p = .ok program :=
  (Program.exists_ofProblem_iff hlen).mpr
    ⟨fun c hc => (h.terms c hc).keys_subset, h.objective.keys_subset⟩

variable [Scalar.LawfulBounds K]

theorem Variable.IsSound.ordered_bounds {x : Variable K} (h : x.IsSound) :
    Scalar.le (compileVariable x).lower (compileVariable x).upper = true ∧
      Scalar.isNaN (compileVariable x).lower = false ∧
      Scalar.isNaN (compileVariable x).upper = false := by
  unfold compileVariable
  by_cases hkind : x.kind = .boolean
  · rw [hkind]
    exact ⟨Scalar.LawfulBounds.zero_le_one,
      Scalar.LawfulBounds.isNaN_of_isFinite Scalar.LawfulUnits.isFinite_zero,
      Scalar.LawfulBounds.isNaN_of_isFinite Scalar.LawfulUnits.isFinite_one⟩
  · obtain ⟨hlower, hupper, hordered⟩ := h.ordered hkind
    have hle := Scalar.LawfulBounds.le_of_not_lt hlower hupper hordered
    cases hk : x.kind with
    | boolean => exact absurd hk hkind
    | integer | numeric => exact ⟨hle, hlower, hupper⟩

namespace Builder

variable {b : Builder K L} {settings : Settings K} {m : CompiledModel K L}

/-- The constraints of a model are the ranges of those of its builder, with proper terms. -/
theorem ranges_of_build (hb : b.IsSound) (hm : b.build settings = .ok m) :
    List.Forall₂ (fun c c' => c'.IsRangeOf c ∧ c'.coefficients.AreProper m.names)
      b.constraints m.constraints := by
  obtain ⟨hnames, -⟩ := isSound_of_build hb hm
  obtain ⟨-, -, -, -, hcompiled, -⟩ := compile_eq_ok.mp (build_eq_ok.mp hm).1
  refine ((List.forall₂_and_left _ _).mpr ⟨hb.constraints, hcompiled⟩).imp ?_
  rintro c c' ⟨hc, hcompile⟩
  obtain ⟨delta, hdelta, hknown, rfl⟩ := compileConstraint_eq_ok.mp hcompile
  have hsound := (Expression.keeps_combine _ hc.left delta hdelta).1
  refine ⟨⟨rfl, -delta.constant, ?_, rfl, rfl⟩, ?_⟩
  · exact Scalar.LawfulBounds.isFinite_neg hsound.finite_constant
  · exact Coefficients.areProper_nonzero (hnames ▸ hsound.areOver hknown)

theorem isProper_of_build (hb : b.IsSound) (hm : b.build settings = .ok m) :
    m.toProblem.IsProper := by
  obtain ⟨hnames, hproblem⟩ := isSound_of_build hb hm
  obtain ⟨-, -, -, hvars, -, o, ho, ho'⟩ := compile_eq_ok.mp (build_eq_ok.mp hm).1
  have hranges := ranges_of_build hb hm
  obtain ⟨hknown, hcompiled⟩ := compileObjective_eq_ok.mp ho'
  refine ⟨hproblem.names_nodup, ?_, fun c' hc' => ?_, fun c' hc' => ?_, ?_, hproblem.offset⟩
  · rw [hvars]
    exact List.forall_mem_map.mpr fun x hx => (hb.vars x hx).ordered_bounds
  · obtain ⟨c, -, -, hterms⟩ := exists_mem_of_forall₂ hranges hc'
    exact hterms
  · obtain ⟨c, -, ⟨-, bound, hbound, hlower, hupper⟩, -⟩ := exists_mem_of_forall₂ hranges hc'
    rw [hlower, hupper]
    exact c.relationship.range_ordered hbound
  · have hobjective := hproblem.objective
    rw [hcompiled] at hobjective ⊢
    exact Coefficients.areProper_nonzero hobjective

/-- **Every constraint of a model that is built is lowered to one relation**, under its label. -/
theorem forall₂_relation_of_build {handles : List ν} {program : Program ν K L} (hb : b.IsSound)
    (hm : b.build settings = .ok m) (hp : Program.ofProblem handles m.toProblem = .ok program) :
    List.Forall₂ (fun c group => ∃ r, group = (c.label, [r]) ∧
        lowerConstraint (Entries.find? · (m.handlesByText handles)) c.coefficients.texts c.lower
          c.upper = .ok [r])
      m.constraints program.groups := by
  have hbounds : ∀ c' ∈ m.constraints, ∃ (r : Relationship) (bound : K),
      Scalar.isFinite bound = true ∧ c'.lower = (r.range bound).1 ∧
        c'.upper = (r.range bound).2 := by
    intro c' hc'
    obtain ⟨c, -, ⟨-, bound, h⟩, -⟩ := exists_mem_of_forall₂ (ranges_of_build hb hm) hc'
    exact ⟨c.relationship, bound, h⟩
  refine ((List.forall₂_and_left _ _).mpr ⟨hbounds, Program.ofProblem_groups hp⟩).imp ?_
  rintro c ⟨label, rs⟩ ⟨⟨r, bound, hbound, hlower, hupper⟩, hlabel, hrs⟩
  have hrange := hrs
  rw [hlower, hupper] at hrange
  obtain ⟨relation, rfl⟩ := lowerConstraint_range_eq_ok hbound hrange
  exact ⟨relation, by rw [hlabel], hrs⟩

/-- **Whatever is built can be lowered.** A model that is built by a reachable builder is proper,
its equations are those of the builder, it has a dense form, and over one handle per variable it has
a program with one relation for each constraint. -/
theorem build_lowerable (hb : b.Reachable) (hm : b.build settings = .ok m) :
    m.toProblem.IsProper ∧
      List.Forall₂ (fun c c' => c'.isEquality = true ↔ c.relationship = .eq)
        b.constraints m.constraints ∧
      (∃ d, DenseModel.ofProblem m.toProblem = .ok d) ∧
      ∀ {ν : Type} (handles : List ν), handles.length = m.vars.length →
        ∃ program, Program.ofProblem handles m.toProblem = .ok program ∧
          List.Forall₂ (fun c group => ∃ r, group = (c.label, [r]))
            m.constraints program.groups := by
  have hranges := ranges_of_build hb.isSound hm
  have hproper := isProper_of_build hb.isSound hm
  refine ⟨hproper, hranges.imp ?_, hproper.exists_dense, fun handles hlen => ?_⟩
  · rintro c c' ⟨⟨-, bound, hbound, hlower, hupper⟩, -⟩
    rw [CompiledConstraint.isEquality, hlower, hupper]
    exact c.relationship.range_beq_iff hbound
  · obtain ⟨program, hprogram⟩ := hproper.exists_program hlen
    exact ⟨program, hprogram, (forall₂_relation_of_build hb.isSound hm hprogram).imp
      fun c group ⟨r, hgroup, _⟩ => ⟨r, hgroup⟩⟩

/-- The model of the depot is lowered either way, each of its four constraints to one relation. -/
theorem depot_lowerable : ∃ m d program, depot.build ⟨some .highs, rational 0⟩ = .ok m ∧
    m.toProblem.IsProper ∧ m.constraints.map (·.isEquality) = [false, true, false, false] ∧
    DenseModel.ofProblem m.toProblem = .ok d ∧
    Program.ofProblem [1, 2, 3] m.toProblem = .ok program ∧
    program.groups.map Prod.fst = [some "room", some "balance", none, none] ∧
    ∀ group ∈ program.groups, group.2.length = 1 := by
  have hok : (depot.build ⟨some .highs, rational 0⟩).isOk = true := by decide +kernel
  obtain ⟨m, hm⟩ := exists_of_isOk hok
  obtain ⟨hproper, hequations, ⟨d, hd⟩, hprograms⟩ := build_lowerable depot_reachable hm
  have hlen : [1, 2, 3].length = m.vars.length :=
    (vars_of_build depot_reachable.isSound hm).length_eq
  obtain ⟨program, hprogram, hgroups⟩ := hprograms [1, 2, 3] hlen
  have hlabels : depot.constraints.map (·.label) = m.constraints.map (·.label) :=
    map_eq_of_forall₂ (ranges_of_build depot_reachable.isSound hm) fun c c' h => h.1.label.symm
  have hkinds : depot.constraints.map (fun c => decide (c.relationship = .eq))
      = m.constraints.map (·.isEquality) :=
    map_eq_of_forall₂ hequations fun _ _ h => Bool.eq_iff_iff.mpr (decide_eq_true_iff.trans h.symm)
  have hgrouped : m.constraints.map (·.label) = program.groups.map Prod.fst := by
    refine map_eq_of_forall₂ hgroups ?_
    rintro c _ ⟨r, rfl⟩
    rfl
  refine ⟨m, d, program, hm, hproper, hkinds.symm.trans rfl, hd, hprogram,
    (hlabels.trans hgrouped).symm.trans rfl, fun group hgroup => ?_⟩
  obtain ⟨c, -, r, rfl⟩ := exists_mem_of_forall₂ hgroups hgroup
  rfl

end Builder
end LinModel
