import LinModel.Proofs.Solving.Outcome
import LinModel.Proofs.Solving.Reports

/-!
# Which duals a solution has

Every constraint of a model that is built is lowered to one relation, so a dual for every relation
is a dual for every constraint, in order. Reading them, a constraint with a name of its own shows
its dual under this name, and constraints that share a name show theirs under the name with their
number among them, in brackets (`shownName`). The duals go by these shown names, and names are
arbitrary texts: where the only constraint of a name has the very text that another is shown under,
one dual replaces the other (`NamesClash`). All other shown names are different
(`nodup_shownNames_iff`), as a text with a number in brackets tells both (`numberedText_inj`). So
every named constraint has an entry with its own dual if and only if no names clash
(`Builder.solve_duals`).

Key definitions: `shownName`, `NamesClash`, `Problem.ownDuals`.
Key theorems: `numberedText_inj`, `nodup_shownNames_iff`, `labelDuals_eq`, `readDuals_eq`,
`Builder.solve_duals`.
-/
namespace LinModel

open Extended

/-! ### Texts with a number -/

/-- Two lists are cut at the last occurrence of an item in only one way. -/
theorem eq_of_append_cons_eq {α : Type} {a : α} {x x' z z' : List α} (hz : a ∉ z) (hz' : a ∉ z')
    (h : x ++ a :: z = x' ++ a :: z') : x = x' ∧ z = z' := by
  rcases List.append_eq_append_iff.mp h with ⟨y, hx, hrest⟩ | ⟨y, hx, hrest⟩
  · cases y with
    | nil => exact ⟨by rw [hx, List.append_nil], (List.cons.inj hrest).2⟩
    | cons a' y =>
      have hmem : a ∈ z := by
        rw [(List.cons.inj hrest).2]
        exact List.mem_append_right _ List.mem_cons_self
      exact absurd hmem hz
  · cases y with
    | nil => exact ⟨by rw [hx, List.append_nil], (List.cons.inj hrest).2.symm⟩
    | cons a' y =>
      have hmem : a ∈ z' := by
        rw [(List.cons.inj hrest).2]
        exact List.mem_append_right _ List.mem_cons_self
      exact absurd hmem hz'

theorem bracket_not_mem (i : ℕ) : '[' ∉ (toString i ++ "]").toList := by
  rw [String.toList_append, List.mem_append, Nat.toString_eq_repr, Nat.toList_repr]
  rintro (h | h)
  · have hdigit := Nat.isDigit_of_mem_toDigits (by omega) (by omega) h
    cases hdigit
  · revert h
    decide

/-- **A text with a number in brackets tells the text and the number.** -/
theorem numberedText_inj {a b : String} {i j : ℕ} :
    numberedText a i = numberedText b j ↔ a = b ∧ i = j := by
  constructor
  · intro h
    have htext : ∀ (c : String) (k : ℕ), (numberedText c k).toList
        = c.toList ++ '[' :: (toString k ++ "]").toList := by
      intro c k
      simp [numberedText]
    have hlists := congrArg String.toList h
    rw [htext, htext] at hlists
    obtain ⟨hname, hnumber⟩ := eq_of_append_cons_eq (bracket_not_mem i) (bracket_not_mem j) hlists
    have hdigits : toString i = toString j :=
      (String.append_left_inj "]").mp (String.toList_inj.mp hnumber)
    exact ⟨String.toList_inj.mp hname, eq_of_toString_eq hdigits⟩
  · rintro ⟨rfl, rfl⟩
    rfl

/-! ### Shown names -/

/-- The text that number `i` of some names is shown under: the name itself if it is the only one of
its kind, and otherwise with the number of times that it comes before. -/
def shownName (names : List String) (i : ℕ) (name : String) : String :=
  if 1 < names.count name then numberedText name ((names.take i).count name) else name

/-- A name that comes once is the text that one of several equal names is shown under. -/
def NamesClash (names : List String) : Prop :=
  ∃ name k, 1 < names.count name ∧ k < names.count name ∧ names.count (numberedText name k) = 1

section Counting

variable {α : Type} [BEq α] [LawfulBEq α] {l : List α} {a : α}

theorem count_take_succ {i : ℕ} (h : l[i]? = some a) :
    (l.take (i + 1)).count a = (l.take i).count a + 1 := by
  rw [List.take_add_one, h, List.count_append]
  simp

theorem count_take_lt {i j : ℕ} (h : l[i]? = some a) (hij : i < j) :
    (l.take i).count a < (l.take j).count a := by
  have hcut : l.take (i + 1) = (l.take j).take (i + 1) := by
    rw [List.take_take, Nat.min_eq_left hij]
  have hle : (l.take (i + 1)).count a ≤ (l.take j).count a := by
    rw [hcut]
    exact (List.take_sublist _ _).count_le a
  rw [count_take_succ h] at hle
  omega

theorem count_take_lt_count {i : ℕ} (h : l[i]? = some a) : (l.take i).count a < l.count a := by
  have hall : l.take (max (i + 1) l.length) = l := List.take_of_length_le (by omega)
  have hlt := count_take_lt h (j := max (i + 1) l.length) (by omega)
  rwa [hall] at hlt

/-- For every number below how often an item comes there is a place before which it comes so many
times. -/
theorem exists_count_take : ∀ {l : List α} {k : ℕ}, k < l.count a →
    ∃ i, l[i]? = some a ∧ (l.take i).count a = k
  | [], k, h => by simp at h
  | b :: l, k, h => by
    by_cases hb : b = a
    · rw [hb, List.count_cons_self] at h
      cases k with
      | zero => exact ⟨0, by rw [hb]; rfl, rfl⟩
      | succ k =>
        obtain ⟨i, hi, hk⟩ := exists_count_take (Nat.lt_of_succ_lt_succ h)
        exact ⟨i + 1, hi, by rw [hb, List.take_succ_cons, List.count_cons_self, hk]⟩
    · rw [List.count_cons_of_ne hb] at h
      obtain ⟨i, hi, hk⟩ := exists_count_take h
      exact ⟨i + 1, hi, by rw [List.take_succ_cons, List.count_cons_of_ne hb, hk]⟩

theorem place_unique {i j : ℕ} (hi : l[i]? = some a) (hj : l[j]? = some a)
    (hcount : (l.take i).count a = (l.take j).count a) : i = j := by
  rcases Nat.lt_trichotomy i j with hlt | rfl | hlt
  · have := count_take_lt hi hlt
    omega
  · rfl
  · have := count_take_lt hj hlt
    omega

end Counting

section Showing

variable {names : List String}

theorem shownName_of_repeated {name : String} (h : 1 < names.count name) (i : ℕ) :
    shownName names i name = numberedText name ((names.take i).count name) := if_pos h

theorem shownName_of_single {name : String} (h : ¬1 < names.count name) (i : ℕ) :
    shownName names i name = name := if_neg h

/-- If no names clash, names at two places are shown under different texts. -/
theorem place_eq_of_shownName_eq (hclash : ¬NamesClash names) {name name' : String} {i j : ℕ}
    (hi : names[i]? = some name) (hj : names[j]? = some name')
    (h : shownName names i name = shownName names j name') : i = j := by
  have hcount := count_take_lt_count hi
  have hcount' := count_take_lt_count hj
  by_cases hrepeated : 1 < names.count name
  · rw [shownName_of_repeated hrepeated] at h
    by_cases hrepeated' : 1 < names.count name'
    · rw [shownName_of_repeated hrepeated', numberedText_inj] at h
      obtain ⟨rfl, hplaces⟩ := h
      exact place_unique hi hj hplaces
    · rw [shownName_of_single hrepeated'] at h
      exact absurd ⟨name, _, hrepeated, hcount, by rw [h]; omega⟩ hclash
  · rw [shownName_of_single hrepeated] at h
    by_cases hrepeated' : 1 < names.count name'
    · rw [shownName_of_repeated hrepeated'] at h
      exact absurd ⟨name', _, hrepeated', hcount', by rw [← h]; omega⟩ hclash
    · rw [shownName_of_single hrepeated'] at h
      subst h
      exact place_unique hi hj (by omega)

/-- **Shown names are all different** if no names clash, and only then. -/
theorem nodup_shownNames_iff :
    (names.zipIdx.map fun (name, i) => shownName names i name).Nodup ↔ ¬NamesClash names := by
  have hplaces : names.zipIdx.Nodup := by
    refine List.Nodup.of_map Prod.snd ?_
    rw [List.zipIdx_map_snd]
    exact List.nodup_range'
  rw [List.nodup_map_iff_inj_on hplaces]
  constructor
  · -- the place of the name that comes once and that of one of the equal names show the same text
    rintro h ⟨name, k, hrepeated, hk, hsingle⟩
    obtain ⟨i, hi, rfl⟩ := exists_count_take hk
    obtain ⟨j, hj, -⟩ := exists_count_take (l := names)
      (a := numberedText name ((names.take i).count name)) (k := 0) (by omega)
    have hsame := h (name, i) (List.mem_zipIdx_iff_getElem?.mpr hi)
      (numberedText name ((names.take i).count name), j) (List.mem_zipIdx_iff_getElem?.mpr hj) (by
        simp only
        rw [shownName_of_repeated hrepeated, shownName_of_single (by omega)])
    have hname : name = numberedText name ((names.take i).count name) := congrArg Prod.fst hsame
    rw [← hname] at hsingle
    omega
  · rintro hclash ⟨name, i⟩ hmem ⟨name', j⟩ hmem' h
    have hi : names[i]? = some name := List.mem_zipIdx_iff_getElem?.mp hmem
    have hj : names[j]? = some name' := List.mem_zipIdx_iff_getElem?.mp hmem'
    obtain rfl := place_eq_of_shownName_eq hclash hi hj h
    cases hi.symm.trans hj
    rfl

end Showing

/-! ### Reading duals -/

/-- The names with their duals. -/
def namedDuals (cs : List (Option String × Extended)) : Entries String Extended :=
  cs.filterMap fun (label, d) => label.map fun name => (name, d)

theorem keys_namedDuals (cs : List (Option String × Extended)) :
    (namedDuals cs).keys = cs.filterMap Prod.fst := by
  unfold namedDuals Entries.keys
  rw [List.map_filterMap]
  refine List.filterMap_congr fun c _ => ?_
  obtain ⟨label, d⟩ := c
  cases label with
  | none => rfl
  | some name => rfl

/-- **Reading labelled duals**, behind names that were met before, shows every name by its place
among all of them. -/
theorem labelDuals_eq : ∀ (cs : List (Option String × Extended)) (before : List String),
    labelDuals numberedText (before ++ cs.filterMap Prod.fst) before.reverse
        (cs.map fun (label, d) => (label, some d))
      = ((namedDuals cs).zipIdx before.length).map fun ((name, d), i) =>
          (shownName (before ++ cs.filterMap Prod.fst) i name, d)
  | [], before => rfl
  | (none, d) :: cs, before => labelDuals_eq cs before
  | (some name, d) :: cs, before => by
    have hall : before ++ ((some name, d) :: cs).filterMap Prod.fst
        = (before ++ [name]) ++ cs.filterMap Prod.fst := by
      rw [List.append_assoc]
      rfl
    have hseen : name :: before.reverse = (before ++ [name]).reverse := by simp
    have hshown : (if 1 < ((before ++ [name]) ++ cs.filterMap Prod.fst).count name
          then numberedText name (before.reverse.count name) else name)
        = shownName ((before ++ [name]) ++ cs.filterMap Prod.fst) before.length name := by
      unfold shownName
      rw [List.count_reverse, List.append_assoc, List.take_left]
    have ih := labelDuals_eq cs (before ++ [name])
    rw [List.length_append] at ih
    rw [hall, List.map_cons, labelDuals, hshown, hseen, ih]
    rfl

section Groups

variable {ν L : Type}

theorem groupDual_singleton (d : Extended) : groupDual [some d] = some d := by
  have hsum : groupDual [some d] = some (rational 0 + d) := rfl
  rw [hsum, rational_zero_add]

theorem groupDuals_of_singletons : ∀ {groups : List (Option L × List (Relation ν Extended))}
    {ds : List Extended}, (∀ group ∈ groups, ∃ r, group.2 = [r]) → ds.length = groups.length →
    groupDuals groups (ds.map some)
      = ((groups.map Prod.fst).zip ds).map fun (label, d) => (label, some d)
  | [], _, _, _ => rfl
  | (label, group) :: groups, [], _, hlen => by cases hlen
  | (label, group) :: groups, d :: ds, h, hlen => by
    obtain ⟨⟨r, hr⟩, hrest⟩ := List.forall_mem_cons.mp h
    obtain rfl : group = [r] := hr
    have ih := groupDuals_of_singletons hrest (Nat.succ.inj hlen)
    show (label, groupDual [some d]) :: groupDuals groups (ds.map some) = _
    rw [groupDual_singleton, ih]
    rfl

end Groups

/-- The names of the constraints that have one, in order. -/
def Problem.labelled {K L : Type} (p : Problem K L) : List L := p.constraints.filterMap (·.label)

/-- The entries of the named constraints, if they are all kept: each has the text that its name is
shown under and its own dual, of the given duals of all constraints. -/
def Problem.ownDuals (p : Problem Extended String) (ds : List Extended) :
    Entries String Extended :=
  (namedDuals ((p.constraints.map (·.label)).zip ds)).zipIdx.map fun ((name, d), i) =>
    (shownName p.labelled i name, d)

section Whole

variable {ν : Type} {p : Problem Extended String} {program : Program ν Extended String}
  {ds : List Extended}

theorem Problem.filterMap_labels (p : Problem Extended String) :
    (p.constraints.map (·.label)).filterMap id = p.labelled := by
  rw [List.filterMap_map]
  rfl

theorem Problem.keys_labelled (hlen : ds.length = p.constraints.length) :
    (namedDuals ((p.constraints.map (·.label)).zip ds)).keys = p.labelled := by
  have hlabels : ((p.constraints.map (·.label)).zip ds).map Prod.fst
      = p.constraints.map (·.label) := List.map_fst_zip (by simp [hlen])
  calc (namedDuals ((p.constraints.map (·.label)).zip ds)).keys
      = ((p.constraints.map (·.label)).zip ds).filterMap Prod.fst := keys_namedDuals _
    _ = (((p.constraints.map (·.label)).zip ds).map Prod.fst).filterMap id := by
        rw [List.filterMap_map]
        rfl
    _ = p.labelled := by rw [hlabels, p.filterMap_labels]

theorem Problem.keys_ownDuals (hlen : ds.length = p.constraints.length) :
    (p.ownDuals ds).keys = p.labelled.zipIdx.map fun (name, i) => shownName p.labelled i name := by
  have hplaces : p.labelled.zipIdx
      = (namedDuals ((p.constraints.map (·.label)).zip ds)).zipIdx.map (Prod.map Prod.fst id) := by
    rw [← p.keys_labelled hlen, Entries.keys, List.zipIdx_map]
  rw [hplaces, List.map_map, Entries.keys, ownDuals, List.map_map]
  rfl

theorem length_flatMap_of_singletons {α β : Type} : ∀ {l : List (α × List β)},
    (∀ group ∈ l, ∃ r, group.2 = [r]) → (l.flatMap Prod.snd).length = l.length
  | [], _ => rfl
  | (a, group) :: l, h => by
    obtain ⟨⟨r, hr⟩, hrest⟩ := List.forall_mem_cons.mp h
    obtain rfl : group = [r] := hr
    rw [List.flatMap_cons, List.length_append, length_flatMap_of_singletons hrest,
      List.length_singleton, List.length_cons, Nat.add_comm]

/-- If groups have one relation each, there is one dual for each behind those of the bounds. -/
theorem length_drop_bounds (hgroups : ∀ group ∈ program.groups, ∃ r, group.2 = [r])
    (hlen : ds.length = program.relations.length) :
    (ds.drop program.bounds.length).length = program.groups.length := by
  rw [List.length_drop, hlen, Program.relations, List.length_append,
    length_flatMap_of_singletons hgroups, Nat.add_sub_cancel_left]

/-- **The duals of a program** whose groups have one relation each are the own duals, as entries. -/
theorem readDuals_eq (hlabels : program.groups.map Prod.fst = p.constraints.map (·.label))
    (hgroups : ∀ group ∈ program.groups, ∃ r, group.2 = [r])
    (hlen : ds.length = program.relations.length) :
    readDuals numberedText program (ds.map some)
      = .ofList (p.ownDuals (ds.drop program.bounds.length)) := by
  have hcount := length_drop_bounds hgroups hlen
  have hconstraints : program.groups.length = p.constraints.length := by
    simpa using congrArg List.length hlabels
  have hall : program.groups.filterMap Prod.fst = p.labelled := by
    rw [← p.filterMap_labels, ← hlabels, List.filterMap_map]
    rfl
  have hnames : [] ++ ((p.constraints.map (·.label)).zip
      (ds.drop program.bounds.length)).filterMap Prod.fst = p.labelled := by
    rw [List.nil_append, ← keys_namedDuals, p.keys_labelled (hcount.trans hconstraints)]
  have hread := labelDuals_eq ((p.constraints.map (·.label)).zip (ds.drop program.bounds.length)) []
  rw [hnames] at hread
  unfold readDuals
  simp only
  rw [← List.map_drop, groupDuals_of_singletons hgroups hcount, hlabels, hall]
  exact congrArg _ hread

end Whole

section Solve

variable {ν K L ε : Type} [Scalar K] [BEq L] {program : Program ν K L} {o : Outcome ν K}

theorem readOutcome_duals (numbered : L → ℕ → L) (program : Program ν K L) (o : Outcome ν K) :
    (readOutcome numbered program o).duals
      = if (readOutcome numbered program o).status.hasSolution = true
        then readDuals numbered program o.duals else [] := by
  unfold readOutcome
  by_cases hword : (SolveStatus.ofWord o.word).hasSolution = true
  · simp only [hword, Bool.not_true, Bool.false_eq_true, ↓reduceIte]
    cases readValues o.value? program.vars with
    | none => rfl
    | some values => exact (if_pos hword).symm
  · simp only [Bool.not_eq_true] at hword
    simp [hword]

theorem solveWith_eq_ok [BEq ν] {refuse : SolveFailure → ε} {numbered : L → ℕ → L}
    {makeVariables : List ProgramVariable → Except ε (List ν)}
    {engine : Program ν K L → Except ε (Outcome ν K)} {solver : Solver} {p : Problem K L}
    {handles : List ν} (hkinds : p.isMixedInteger = true → solver.supportsIntegers = true)
    (hmake : makeVariables (p.vars.map CompiledVariable.programVariable) = .ok handles)
    (hp : Program.ofProblem handles p = .ok program) (ho : engine program = .ok o) :
    solveWith refuse numbered makeVariables engine solver p
      = .ok (readOutcome numbered program o) := by
  have hsupported : (p.isMixedInteger && !solver.supportsIntegers) = false := by
    cases hmixed : p.isMixedInteger with
    | false => rfl
    | true => simp [hkinds hmixed]
  unfold solveWith
  simp only [hsupported, Bool.false_eq_true, ↓reduceIte, hmake, ok_bind, hp, ho]
  rfl

end Solve

namespace Builder

variable {ν : Type} {b : Builder Extended String} {settings : Settings Extended}
  {m : CompiledModel Extended String} {handles : List ν} {program : Program ν Extended String}

/-- **Which duals a solution has.** Let a model be built, and let an engine answer its program with
a dual for every relation. Then every constraint is lowered to one relation, in order and behind the
bounds, and the solve returns a solution. It has no duals if its status has no assignment. Otherwise
it has, under every text, the own dual of the last named constraint that is shown under this text.
It has as many duals as constraints have a name if and only if no names clash, and then every named
constraint has an entry with its own dual, in the order of the model. -/
theorem solve_duals [BEq ν] {ε : Type} {refuse : SolveFailure → ε}
    {makeVariables : List ProgramVariable → Except ε (List ν)}
    {engine : Program ν Extended String → Except ε (Outcome ν Extended)}
    {o : Outcome ν Extended} {ds : List Extended} (hb : b.Reachable)
    (hm : b.build settings = .ok m)
    (hkinds : m.isMixedInteger = true → m.solver.supportsIntegers = true)
    (hmake : makeVariables (m.vars.map CompiledVariable.programVariable) = .ok handles)
    (hp : Program.ofProblem handles m.toProblem = .ok program) (ho : engine program = .ok o)
    (hduals : o.duals = ds.map some) (hlen : ds.length = program.relations.length) :
    List.Forall₂ (fun c group => ∃ r, group = (c.label, [r]) ∧
          lowerConstraint (m.handle? handles) c.coefficients.texts c.lower c.upper = .ok [r])
        m.constraints program.groups ∧
      ∃ s, solveWith refuse numberedText makeVariables engine m.solver m.toProblem = .ok s ∧
        (s.status.hasSolution = false → s.duals = []) ∧
        (s.status.hasSolution = true →
          (∀ text, s.duals.find? text
            = Entries.find? text (m.ownDuals (ds.drop program.bounds.length)).reverse) ∧
          (s.duals.length = m.labelled.length ↔ ¬NamesClash m.labelled) ∧
          (¬NamesClash m.labelled → s.duals = m.ownDuals (ds.drop program.bounds.length))) := by
  have hlowered : List.Forall₂ (fun c group => ∃ r, group = (c.label, [r]) ∧
      lowerConstraint (m.handle? handles) c.coefficients.texts c.lower c.upper = .ok [r])
        m.constraints program.groups := forall₂_relation_of_build hb.isSound hm hp
  have hlabels : program.groups.map Prod.fst = m.constraints.map (·.label) :=
    (map_eq_of_forall₂ (Program.ofProblem_groups hp) fun _ _ h => h.1).symm
  have hgroups : ∀ group ∈ program.groups, ∃ r, group.2 = [r] := by
    intro group hgroup
    obtain ⟨c, -, r, rfl, -⟩ := exists_mem_of_forall₂ hlowered hgroup
    exact ⟨r, rfl⟩
  have hread := readDuals_eq hlabels hgroups hlen
  have hkeys := m.keys_ownDuals ((length_drop_bounds hgroups hlen).trans hlowered.length_eq.symm)
  have hlength : (m.ownDuals (ds.drop program.bounds.length)).length = m.labelled.length := by
    simpa [Entries.keys] using congrArg List.length hkeys
  refine ⟨hlowered, _, solveWith_eq_ok hkinds hmake hp ho, fun hnone => ?_, fun hsolution => ?_⟩
  · rw [readOutcome_duals, if_neg (by rw [hnone]; exact Bool.false_ne_true)]
  · rw [readOutcome_duals, if_pos hsolution, hduals, hread]
    refine ⟨fun text => Entries.find?_ofList text _, ?_, fun hclash => ?_⟩
    · rw [← hlength, Entries.length_ofList_eq_iff, hkeys, nodup_shownNames_iff]
    · rw [Entries.ofList_of_nodup]
      rw [hkeys, nodup_shownNames_iff]
      exact hclash

/-- `x1 ≥ 1`, `x2 ≥ 2` and `x3 ≥ 3` under the given names, and `x1 + 2·x2 + 3·x3` to be made
small. -/
def thrice (first second third : String) : Builder Extended String :=
  let least (n : ℕ) (name : String) := relate (.expression (.term (.automatic n) (rational 1)))
    (.number (rational n)) .ge (some name)
  let declare := declare .numeric none none none
  let related := after (least 3 third) (after (least 2 second) (after (least 1 first)
    (after declare (after declare (after declare empty)))))
  after (setObjective (.expression (.linear [(.automatic 1, rational 1), (.automatic 2, rational 2),
    (.automatic 3, rational 3)] (rational 0))) .min) related

theorem thrice_reachable (first second third : String) :
    (thrice first second third).Reachable := by
  have hterm : ∀ n, (Operand.expression (.term (.automatic n) (rational 1))).IsSound := fun n =>
    .expression (Expression.isSound_term _ 1)
  have hcost : (Operand.expression (.linear [(.automatic 1, rational 1), (.automatic 2, rational 2),
      (.automatic 3, rational 3)] (rational 0))).IsSound := by
    refine .expression ⟨by simp [Coefficients.AreFinite, Expression.coefficients], rfl, ?_⟩
    show [VariableName.automatic 1, .automatic 2, .automatic 3].Nodup
    decide
  have hdeclared : Reaches (empty : Builder Extended String) _ :=
    .step (.step (.step (.refl _) (.declare _ .numeric none none none))
      (.declare _ .numeric none none none)) (.declare _ .numeric none none none)
  exact .step (.step (.step (.step hdeclared (.relate _ (hterm 1) (.number _) .ge (some first)))
    (.relate _ (hterm 2) (.number _) .ge (some second)))
    (.relate _ (hterm 3) (.number _) .ge (some third))) (.setObjective _ hcost .min)

/-- Each of the three relations is tight at the optimum, and its dual is the cost of its
variable. -/
def prices : List Extended := [rational 1, rational 2, rational 3]

/-- A solve of a model with three variables by an engine that finds the optimum 14 at 1, 2 and 3,
with these duals. -/
def solvePriced (m : CompiledModel Extended String) :
    Except SolveFailure (Solution Extended String) :=
  solveWith id numberedText (fun _ => .ok [1, 2, 3])
    (fun _ => .ok ⟨some "optimal", rational 14, fun n : ℕ => some (rational n), prices.map some⟩)
    m.solver m.toProblem

/-- The model and its program, and the solution of such a solve. -/
def pricedRun (b : Builder Extended String) : Option (CompiledModel Extended String ×
    Program ℕ Extended String × Solution Extended String) :=
  (b.build ⟨some .highs, rational 0⟩).toOption.bind fun m =>
    (Program.ofProblem [1, 2, 3] m.toProblem).toOption.bind fun program =>
      (solvePriced m).toOption.map fun s => (m, program, s)

theorem of_pricedRun_eq_some {b : Builder Extended String} {m : CompiledModel Extended String}
    {program : Program ℕ Extended String} {s : Solution Extended String}
    (h : pricedRun b = some (m, program, s)) :
    b.build ⟨some .highs, rational 0⟩ = .ok m ∧
      Program.ofProblem [1, 2, 3] m.toProblem = .ok program ∧ solvePriced m = .ok s := by
  obtain ⟨m', hm, h⟩ := Option.bind_eq_some_iff.mp h
  obtain ⟨program', hp, h⟩ := Option.bind_eq_some_iff.mp h
  obtain ⟨s', hs, h⟩ := Option.map_eq_some_iff.mp h
  cases h
  exact ⟨toOption_eq_some.mp hm, toOption_eq_some.mp hp, toOption_eq_some.mp hs⟩

/-- Of three constraints, the two of one name are told apart by their number. -/
theorem sample_duals : ∃ m s, (thrice "a" "a" "b").build ⟨some .highs, rational 0⟩ = .ok m ∧
    solvePriced m = .ok s ∧
    s.duals = [("a[0]", rational 1), ("a[1]", rational 2), ("b", rational 3)] := by
  have hrun : ((pricedRun (thrice "a" "a" "b")).map fun (m, program, s) =>
      (s.status.hasSolution && !m.isMixedInteger, program.relations.length, m.labelled,
        m.ownDuals (prices.drop program.bounds.length)))
      = some (true, 3, ["a", "a", "b"],
        [("a[0]", rational 1), ("a[1]", rational 2), ("b", rational 3)]) := by
    decide +kernel
  obtain ⟨⟨m, program, s⟩, hpriced, hresult⟩ := Option.map_eq_some_iff.mp hrun
  obtain ⟨hm, hp, hs⟩ := of_pricedRun_eq_some hpriced
  simp only [Prod.mk.injEq, Bool.and_eq_true, Bool.not_eq_true'] at hresult
  obtain ⟨⟨hsolution, hkinds⟩, hrelations, hlabelled, hown⟩ := hresult
  have hnames : ¬NamesClash m.labelled := by
    rw [← nodup_shownNames_iff, hlabelled]
    decide +kernel
  obtain ⟨-, s', hs', -, hduals⟩ : _ ∧ ∃ s', solvePriced m = .ok s' ∧ _ ∧ _ :=
    solve_duals (thrice_reachable "a" "a" "b") hm
      (fun hmixed => absurd (hkinds.symm.trans hmixed) Bool.false_ne_true) rfl hp rfl
      (show _ = prices.map some from rfl) hrelations.symm
  cases hs.symm.trans hs'
  obtain ⟨-, -, hkept⟩ := hduals hsolution
  exact ⟨m, s, hm, hs, (hkept hnames).trans hown⟩

/-- The third constraint has the text that the first is shown under: every relation has a dual and
the first constraint's is lost. -/
theorem clashing_names_lose_dual : (thrice "a" "a" "a[0]").Reachable ∧ ∃ m program s,
    (thrice "a" "a" "a[0]").build ⟨some .highs, rational 0⟩ = .ok m ∧
    Program.ofProblem [1, 2, 3] m.toProblem = .ok program ∧
    program.relations.length = prices.length ∧ solvePriced m = .ok s ∧ s.status = .optimal ∧
    m.labelled = ["a", "a", "a[0]"] ∧
    s.duals = [("a[0]", rational 3), ("a[1]", rational 2)] := by
  have hrun : ((pricedRun (thrice "a" "a" "a[0]")).map fun (m, program, s) =>
      (program.relations.length, s.status, m.labelled, s.duals))
      = some (3, .optimal, ["a", "a", "a[0]"],
        [("a[0]", rational 3), ("a[1]", rational 2)]) := by
    decide +kernel
  obtain ⟨⟨m, program, s⟩, hpriced, hresult⟩ := Option.map_eq_some_iff.mp hrun
  obtain ⟨hm, hp, hs⟩ := of_pricedRun_eq_some hpriced
  simp only [Prod.mk.injEq] at hresult
  obtain ⟨hrelations, hstatus, hlabelled, hduals⟩ := hresult
  exact ⟨thrice_reachable _ _ _, m, program, s, hm, hp, hrelations, hs, hstatus, hlabelled, hduals⟩

end Builder
end LinModel
