import LinModel.Proofs.Builder.Declarations
import LinModel.Proofs.Tensor.Filling

/-!
# Families of variables

A family of variables declares one variable per key tuple, all of one kind and with the same bounds,
under the stem and the texts of the keys. Different key tuples may have the same name, as keys that
contain underscores or different keys that are written alike; a name may be taken; and the bounds
may not fit. These are the only reasons for a family over proper dimensions to fail
(`Builder.variableFamily_iff`), and a family that fails leaves the builder as it was. If it returns,
the registry has grown by the members in the order of the key tuples, and the tensor has each of
them under its keys.

Key definitions: `Variable.IsRequested`, `Builder.IsFamily`.
Key theorems: `Builder.memberName_pure`, `Builder.declareMember_eq`, `Builder.declareMember_eq_ok`,
`Builder.declareMembers_eq_ok`, `Builder.generateMembers_eq_ok`, `Builder.variableFamily_iff`.
-/
namespace LinModel

variable {L κ δ : Type}

/-- The variable that is asked for under a name that is given as a text. -/
structure Variable.IsRequested (kind : VariableKind) (lower upper : Option Extended) (name : String)
    (x : Variable Extended) : Prop where
  name_eq : x.name.text = name
  eq : x = .requested x.name kind lower upper

theorem Variable.exists_isRequested (kind : VariableKind) (lower upper : Option Extended)
    {name : String} (h : name ≠ "") :
    ∃ x : Variable Extended, x.IsRequested kind lower upper name := by
  refine ⟨.requested ⟨name, h⟩ kind lower upper, ?_⟩
  constructor <;> rw [requested_name]

/-- The name of a member with at least one key has an underscore, so it is not empty. -/
theorem familyName_ne_empty (stem : String) {texts : List String} (h : texts ≠ []) :
    familyName stem texts ≠ "" := by
  obtain ⟨text, rest, rfl⟩ := List.exists_cons_of_ne_nil h
  intro hempty
  have hlength := congrArg String.length hempty
  unfold familyName at hlength
  rw [String.intercalate_cons_cons] at hlength
  simp at hlength

namespace Builder

theorem memberText_ne_empty {text : κ → String} {stem : Option String} {dims : List (List κ)}
    (hne : dims ≠ []) {keys : List κ} (h : keys ∈ product dims) :
    memberText text stem keys ≠ "" := by
  refine familyName_ne_empty _ fun hnil => hne ?_
  have hlength := length_of_mem_product h
  rw [List.map_eq_nil_iff.mp hnil] at hlength
  exact List.length_eq_zero_iff.mp hlength.symm

/-- Where writing keys and reading the stem cannot fail, a member's name is its text. -/
theorem memberName_pure {m : Type → Type} [Monad m] [LawfulMonad m] (text : κ → String)
    (stem : Option String) (keys : List κ) :
    memberName (m := m) (fun k => pure (text k)) (stem.map pure) keys
      = pure (memberText text stem keys) := by
  unfold memberName memberText
  rw [List.mapM_pure, pure_bind]
  cases stem with
  | none => exact pure_bind _ _
  | some stem => exact pure_bind _ _

/-! ### One member after the other -/

/-- A member is declared as any variable is, unless its name is empty. -/
theorem declareMember_eq {K : Type} [Scalar K] (kind : VariableKind) (lower upper : Option K)
    (name : String) :
    (declareMember kind lower upper name :
      ExceptT (FamilyError K κ) (StateM (Builder K L)) (Variable K))
      = match VariableName.ofText? name with
        | some name => ExceptT.adapt .member (declare kind (some name) lower upper)
        | none => throw .emptyName := by
  unfold declareMember declareMember.read
  cases VariableName.ofText? name with
  | none => rfl
  | some name =>
    unfold declare declareFor declareMember.make
    simp only [nameFor, pure_bind]
    cases Variable.declare name kind lower upper with
    | ok x => simp only [pure_bind, bind_assoc, bind_pure]
    | error e => rfl

section Members

variable {kind : VariableKind} {lower upper : Option Extended}

/-- A member is registered under its name if the bounds fit and the name is not taken. -/
theorem declareMember_eq_ok {name : String} (hname : name ≠ "") {b c : Builder Extended L}
    {x : Variable Extended} :
    runFrom (declareMember (κ := κ) kind lower upper name) b = (.ok x, c) ↔
      (Variable.Fits kind lower upper ∧ name ∉ b.names.map (·.text)) ∧
        x.IsRequested kind lower upper name ∧ c = { b with vars := b.vars ++ [x] } := by
  have htaken : name ∈ b.names.map (·.text) ↔ (⟨name, hname⟩ : VariableName) ∈ b.names := by
    constructor
    · intro h
      obtain ⟨n, hn, htext⟩ := List.mem_map.mp h
      rwa [← VariableName.eq_of_text_eq (a := n) (b := ⟨name, hname⟩) htext]
    · exact fun h => List.mem_map_of_mem (f := VariableName.text) h
  have hrequested : ∀ x : Variable Extended, x.IsRequested kind lower upper name ↔
      x = .requested ⟨name, hname⟩ kind lower upper := by
    intro x
    constructor
    · rintro ⟨htext, hx⟩
      rw [hx, VariableName.eq_of_text_eq (a := x.name) (b := ⟨name, hname⟩) htext]
    · rintro rfl
      constructor <;> rw [Variable.requested_name]
  have hread : VariableName.ofText? name = some ⟨name, hname⟩ := dif_pos hname
  rw [declareMember_eq, hread, htaken, hrequested]
  simp only
  rw [runFrom_adapt]
  by_cases hfits : Variable.Fits kind lower upper
  · rw [runFrom_declare_of_fits hfits]
    by_cases hmem : (⟨name, hname⟩ : VariableName) ∈ b.names
    · rw [if_pos (by exact hmem)]
      exact iff_of_false (fun h => by cases h) fun h => h.1.2 hmem
    · rw [if_neg (by exact hmem)]
      constructor
      · rintro ⟨⟩
        exact ⟨⟨hfits, hmem⟩, rfl, rfl⟩
      · rintro ⟨-, rfl, rfl⟩
        rfl
  · obtain ⟨e, he⟩ := runFrom_declare_of_not_fits hfits (some ⟨name, hname⟩) b
    rw [he]
    exact iff_of_false (fun h => by cases h) fun h => hfits h.1.1

/-- **Members are registered one after the other** if the bounds fit, their names are different and
none of these is taken. -/
theorem declareMembers_eq_ok : ∀ {names : List String}, (∀ name ∈ names, name ≠ "") →
    ∀ {b c : Builder Extended L} {members : List (Variable Extended)},
      runFrom (names.mapM (declareMember (κ := κ) kind lower upper)) b = (.ok members, c) ↔
        (names.Nodup ∧ (∀ name ∈ names, name ∉ b.names.map (·.text)) ∧
          (names ≠ [] → Variable.Fits kind lower upper)) ∧
        List.Forall₂ (Variable.IsRequested kind lower upper) names members ∧
          c = { b with vars := b.vars ++ members }
  | [], _, b, c, members => by
    rw [List.mapM_nil, runFrom_pure, List.forall₂_nil_left_iff]
    constructor
    · rintro ⟨⟩
      exact ⟨⟨List.nodup_nil, nofun, fun h => absurd rfl h⟩, rfl, by rw [List.append_nil]⟩
    · rintro ⟨-, rfl, rfl⟩
      rw [List.append_nil]
  | name :: names, hnames, b, c, members => by
    obtain ⟨hname, hnames⟩ := List.forall_mem_cons.mp hnames
    -- the rest starts from a builder with one more name
    have htaken : ∀ {x : Variable Extended}, x.IsRequested kind lower upper name → ∀ other : String,
        other ∈ ({ b with vars := b.vars ++ [x] } : Builder Extended L).names.map (·.text) ↔
          other ∈ b.names.map (·.text) ∨ other = name := by
      intro x hx other
      unfold Builder.names
      rw [List.map_append, List.map_append, List.mem_append, ← hx.name_eq]
      exact or_congr_right List.mem_singleton
    simp only [List.mapM_cons, runFrom_bind_eq_ok, declareMember_eq_ok hname,
      declareMembers_eq_ok hnames, runFrom_pure]
    constructor
    · rintro ⟨x, _, ⟨⟨hfits, hnew⟩, hx, rfl⟩, rest, _, ⟨⟨hnodup, hfree, -⟩, hrest, rfl⟩, ⟨⟩⟩
      simp only [htaken hx, not_or] at hfree
      have hdifferent := List.nodup_cons.mpr ⟨fun hmem => (hfree name hmem).2 rfl, hnodup⟩
      refine ⟨⟨hdifferent, ?_, fun _ => hfits⟩, .cons hx hrest,
        by rw [List.append_assoc, List.singleton_append]⟩
      exact List.forall_mem_cons.mpr ⟨hnew, fun other hmem => (hfree other hmem).1⟩
    · rintro ⟨⟨hnodup, hfree, hfits⟩, hall, rfl⟩
      obtain ⟨hnew, hnodup⟩ := List.nodup_cons.mp hnodup
      obtain ⟨hname, hfree⟩ := List.forall_mem_cons.mp hfree
      cases hall with
      | @cons _ x _ rest hx hrest =>
        have hfits := hfits (List.cons_ne_nil _ _)
        refine ⟨x, _, ⟨⟨hfits, hname⟩, hx, rfl⟩, rest, _,
          ⟨⟨hnodup, ?_, fun _ => hfits⟩, hrest, rfl⟩,
          by rw [List.append_assoc, List.singleton_append]⟩
        intro other hmem
        rw [htaken hx, not_or]
        exact ⟨hfree other hmem, fun heq => hnew (heq ▸ hmem)⟩

end Members

/-! ### The family -/

theorem runFrom_undoingOnError {K ε α : Type} [Interruptible ε]
    (herror : ∀ e : ε, Interruptible.isInterruption e = false)
    (program : ExceptT ε (StateM (Builder K L)) α) (b : Builder K L) :
    runFrom (undoingOnError (K := K) (L := L) (ε := ε) program) b
      = match runFrom program b with
        | (.ok t, c) => (.ok t, c)
        | (.error e, c) => (.error e, rollback b c) := by
  unfold undoingOnError
  rw [runFrom_bind, runFrom_get]
  simp only [herror]
  rw [runFrom_tryCatch]
  rcases runFrom program b with ⟨e | t, c⟩ <;> rfl

variable [Key κ] (text : κ → String) (stem : Option String) (kind : VariableKind)
  (lower upper : Option Extended)

/-- What a family that returns has done: it has registered a variable for every key tuple, in order,
and the tensor has these and finds each under its keys. -/
structure IsFamily (dims : List (List κ)) (b c : Builder Extended L)
    (t : Tensor κ δ (Variable Extended)) (members : List (Variable Extended)) : Prop where
  requested : List.Forall₂ (fun keys x => Variable.IsRequested kind lower upper
    (memberText text stem keys) x) (product dims) members
  registered : c = { b with vars := b.vars ++ members }
  dimensions : t.dimensions = dims
  items : t.items = (product dims).zip members
  dense : ∀ keys, Belong dims keys → t.contains keys = true
  found : ∀ keys x, t.Lists keys x → t.find (keys.map .key) = .ok (.stored x)

/-- The members of a family, before anything is taken back. -/
def generateMembers (dims : List (List κ)) :
    ExceptT (FamilyError Extended κ) (StateM (Builder Extended L))
      (Tensor κ δ (Variable Extended)) :=
  Tensor.generate (ε := FamilyError Extended κ) .keys dims (fun keys =>
    declareMember kind lower upper (memberText text stem keys)) none none

theorem variableFamily_eq (dims : List (List κ)) :
    (variableFamily text dims stem kind lower upper :
      ExceptT (FamilyError Extended κ) (StateM (Builder Extended L))
        (Tensor κ δ (Variable Extended)))
      = undoingOnError (K := Extended) (L := L) (ε := FamilyError Extended κ)
          (generateMembers text stem kind lower upper dims) := by
  unfold variableFamily namedFamily family generateMembers
  simp only [memberName_pure, pure_bind]

theorem declares_generateMembers (dims : List (List κ)) :
    Moves Declares (generateMembers (L := L) (δ := δ) text stem kind lower upper dims) := by
  have hmember : ∀ keys : List κ, Moves Declares (declareMember kind lower upper
      (memberText text stem keys) :
        ExceptT (FamilyError Extended κ) (StateM (Builder Extended L)) _) := by
    intro keys b
    rw [declareMember_eq]
    cases VariableName.ofText? (memberText text stem keys) with
    | none => exact .refl
    | some name => exact .declare .refl kind (some name) lower upper
  unfold generateMembers
  exact .generate (fun _ => .refl) (fun _ _ _ h hd => h.trans hd) _ dims hmember none none

variable {text stem kind lower upper} {dims : List (List κ)} {b c : Builder Extended L}

/-- Over proper dimensions, members are generated by filling a grid. -/
theorem generateMembers_eq_ok (hne : dims ≠ [])
    (hdims : ∀ domain ∈ dims, AllDifferent domain ∧ ∀ k ∈ domain, Key.usable k = true)
    {t : Tensor κ δ (Variable Extended)} :
    runFrom (generateMembers text stem kind lower upper dims) b = (.ok t, c) ↔
      ∃ grid, runFrom (Grid.generate (fun keys => declareMember (κ := κ) kind lower upper
          (memberText text stem keys)) dims) b = (.ok grid, c) ∧
        t = ⟨dims, grid, none, none⟩ := by
  unfold generateMembers Tensor.generate
  rw [Tensor.checkDimensions_eq_ok hne hdims fun domain _ => Tensor.isApart_none domain]
  simp only [runFrom_bind_eq_ok, runFrom_pure]
  constructor
  · rintro ⟨grid, _, hgrid, ⟨⟩⟩
    exact ⟨grid, hgrid, rfl⟩
  · rintro ⟨grid, hgrid, rfl⟩
    exact ⟨grid, c, hgrid, rfl⟩

omit [Key κ] in
/-- The members of a family that are declared one after the other. -/
theorem declareTuples_eq_ok (hne : dims ≠ []) {members : List (Variable Extended)} :
    runFrom ((product dims).mapM fun keys =>
        declareMember (κ := κ) kind lower upper (memberText text stem keys)) b = (.ok members, c) ↔
      (((product dims).map (memberText text stem)).Nodup ∧
        (∀ keys ∈ product dims, memberText text stem keys ∉ b.names.map (·.text)) ∧
        (product dims ≠ [] → Variable.Fits kind lower upper)) ∧
      List.Forall₂ (fun keys x => Variable.IsRequested kind lower upper
        (memberText text stem keys) x) (product dims) members ∧
      c = { b with vars := b.vars ++ members } := by
  have hnames : ∀ name ∈ (product dims).map (memberText text stem), name ≠ "" := by
    intro name hname
    obtain ⟨keys, hkeys, rfl⟩ := List.mem_map.mp hname
    exact memberText_ne_empty hne hkeys
  have hpass : runFrom (((product dims).map (memberText text stem)).mapM
      (declareMember (κ := κ) kind lower upper)) b = (.ok members, c) ↔ _ :=
    declareMembers_eq_ok hnames
  rw [List.mapM_map] at hpass
  simpa only [Function.comp_def, List.forall_mem_map, List.forall₂_map_left_iff, ne_eq,
    List.map_eq_nil_iff] using hpass

theorem isFamily_of_generateMembers [EquivBEq κ] (hne : dims ≠ [])
    (hdims : ∀ domain ∈ dims, AllDifferent domain ∧ ∀ k ∈ domain, Key.usable k = true)
    {t : Tensor κ δ (Variable Extended)}
    (h : runFrom (generateMembers text stem kind lower upper dims) b = (.ok t, c)) :
    ∃ members, IsFamily text stem kind lower upper dims b c t members := by
  have hfinite : t.IsFiniteMap := (Tensor.Reachable.generate (congrArg Prod.fst h)).isFiniteMap
  obtain ⟨grid, hgrid, rfl⟩ := (generateMembers_eq_ok hne hdims).mp h
  obtain ⟨members, hpass, hitems⟩ := Grid.exists_values (fun domain h => (hdims domain h).1) hgrid
  obtain ⟨-, hall, hc⟩ := (declareTuples_eq_ok hne).mp hpass
  refine ⟨members, hall, hc, rfl, hitems, fun keys hkeys => ?_, hfinite.find_listed⟩
  -- the key tuples are all there, each with its member
  obtain ⟨tuple, htuple, hsame⟩ := exists_mem_product hkeys
  rw [← List.map_fst_zip hall.length_eq.le, ← hitems] at htuple
  obtain ⟨item, hitem, rfl⟩ := List.mem_map.mp htuple
  exact (hfinite.contains_iff keys hkeys.length_eq.symm).mpr ⟨item.2, item, hitem, hsame, rfl⟩

theorem runFrom_variableFamily (b : Builder Extended L) :
    runFrom (variableFamily (δ := δ) text dims stem kind lower upper) b
      = match runFrom (generateMembers text stem kind lower upper dims) b with
        | (.ok t, c) => (.ok t, c)
        | (.error e, _) => (.error e, b) := by
  have hdeclares := declares_generateMembers (L := L) (δ := δ) text stem kind lower upper dims b
  rw [variableFamily_eq, runFrom_undoingOnError fun _ => rfl]
  rcases hrun : runFrom (generateMembers (δ := δ) text stem kind lower upper dims) b with ⟨e | t, c⟩
  · rw [hrun] at hdeclares
    simp only [rollback_of_declares hdeclares]
  · rfl

theorem variableFamily_eq_ok {t : Tensor κ δ (Variable Extended)} :
    runFrom (variableFamily text dims stem kind lower upper) b = (.ok t, c) ↔
      runFrom (generateMembers text stem kind lower upper dims) b = (.ok t, c) := by
  rw [runFrom_variableFamily]
  rcases runFrom (generateMembers text stem kind lower upper dims) b with ⟨e | t', c'⟩
  · exact iff_of_false (fun h => by cases h) (fun h => by cases h)
  · rfl

theorem eq_of_variableFamily_error {e : FamilyError Extended κ}
    (h : runFrom (variableFamily (δ := δ) text dims stem kind lower upper) b = (.error e, c)) :
    c = b := by
  rw [runFrom_variableFamily] at h
  rcases hrun : runFrom (generateMembers (δ := δ) text stem kind lower upper dims) b
    with ⟨e' | t, c'⟩
  · rw [hrun] at h
    exact (error_eq_iff.mp h).2
  · rw [hrun] at h
    cases h

/-- **Families succeed exactly when they can, and put each variable under its keys.** Over at least
one dimension, each with different keys, a family of variables returns if and only if the names that
the stem and the keys make are different and none of them is registered, and the bounds fit, unless
there is no key tuple. Then the registry is the one of before with the members behind it, one per
key tuple in order, each with its tuple's name and the kind and the bounds that were asked for; and
the tensor has a value under all keys of its dimensions, which is the member of these keys. If it
fails, the builder is what it was. -/
theorem variableFamily_iff [EquivBEq κ] (text : κ → String) (stem : Option String)
    (kind : VariableKind) (lower upper : Option Extended) (hne : dims ≠ [])
    (hdims : ∀ domain ∈ dims, AllDifferent domain ∧ ∀ k ∈ domain, Key.usable k = true)
    (b : Builder Extended L) :
    ((∃ (t : Tensor κ δ (Variable Extended)) (c : Builder Extended L),
        runFrom (variableFamily text dims stem kind lower upper) b = (.ok t, c)) ↔
      ((product dims).map (memberText text stem)).Nodup ∧
        (∀ keys ∈ product dims, memberText text stem keys ∉ b.names.map (·.text)) ∧
        (product dims ≠ [] → Variable.Fits kind lower upper)) ∧
    (∀ (t : Tensor κ δ (Variable Extended)) (c : Builder Extended L),
      runFrom (variableFamily text dims stem kind lower upper) b = (.ok t, c) →
        ∃ members, IsFamily text stem kind lower upper dims b c t members) ∧
    ∀ (e : FamilyError Extended κ) (c : Builder Extended L),
      runFrom (variableFamily (δ := δ) text dims stem kind lower upper) b = (.error e, c) →
        c = b := by
  refine ⟨⟨?_, fun hcan => ?_⟩, fun t c h => ?_, fun e c => eq_of_variableFamily_error⟩
  · rintro ⟨t, c, h⟩
    obtain ⟨grid, hgrid, -⟩ := (generateMembers_eq_ok hne hdims).mp (variableFamily_eq_ok.mp h)
    obtain ⟨members, hpass, -⟩ := Grid.exists_values (fun domain h => (hdims domain h).1) hgrid
    exact ((declareTuples_eq_ok hne).mp hpass).1
  · have hmember : ∀ keys ∈ product dims,
        ∃ x, Variable.IsRequested kind lower upper (memberText text stem keys) x :=
      fun _ hkeys => Variable.exists_isRequested kind lower upper (memberText_ne_empty hne hkeys)
    obtain ⟨members, hall⟩ := exists_forall₂ hmember
    obtain ⟨grid, hgrid⟩ := Grid.exists_grid (fun domain h => (hdims domain h).1)
      ((declareTuples_eq_ok hne).mpr ⟨hcan, hall, rfl⟩)
    have hgenerate := (generateMembers_eq_ok (δ := δ) hne hdims).mpr ⟨grid, hgrid, rfl⟩
    exact ⟨_, _, variableFamily_eq_ok.mpr hgenerate⟩
  · exact isFamily_of_generateMembers hne hdims (variableFamily_eq_ok.mp h)

/-- Texts and truth values as they are written. -/
def shownKey : PlainKey → String
  | .text t => t
  | .truth true => "True"
  | .truth false => "False"
  | _ => "None"

/-- Two dimensions, of two texts and of a truth value and another key. -/
def mixedKeys (other : PlainKey) : List (List PlainKey) :=
  [[.text "a", .text "a_True"], [.truth true, other]]

/-- The sample with a family of integers over these dimensions that are not negative. -/
def flows (other : PlainKey) :
    Except (FamilyError Extended PlainKey) (Tensor PlainKey Unit (Variable Extended)) ×
      Builder Extended String :=
  runFrom (variableFamily shownKey (mixedKeys other) (some "flow") .integer (some (.rational 0))
    none) sample

theorem mixedKeys_different (other : PlainKey) (h : (PlainKey.truth true == other) = false) :
    ∀ domain ∈ mixedKeys other, AllDifferent domain ∧ ∀ k ∈ domain, Key.usable k = true := by
  have htexts : AllDifferent [PlainKey.text "a", .text "a_True"] :=
    List.pairwise_pair.mpr (by decide +kernel)
  refine List.forall_mem_cons.mpr ⟨⟨htexts, fun _ _ => rfl⟩, ?_⟩
  exact List.forall_mem_singleton.mpr ⟨List.pairwise_pair.mpr h, fun _ _ => rfl⟩

/-- With nothing as the other key the family has four members. With the text `True_True` two key
tuples have the name `flow_a_True_True`, so the family fails, and the sample is what it was. -/
theorem flows_iff_different :
    (∃ t c members, flows .nothing = (.ok t, c) ∧
      IsFamily shownKey (some "flow") .integer (some (.rational 0)) none (mixedKeys .nothing)
        sample c t members ∧
      members.map (·.name.text)
        = ["flow_a_True", "flow_a_None", "flow_a_True_True", "flow_a_True_None"]) ∧
    ∃ e, flows (.text "True_True") = (.error e, sample) := by
  have hne : ∀ other, mixedKeys other ≠ [] := fun _ => List.cons_ne_nil _ _
  have hfits : Variable.Fits .integer (some (Extended.rational 0)) none := ⟨rfl, rfl, rfl⟩
  constructor
  · obtain ⟨hiff, hfamily, -⟩ := variableFamily_iff (L := String) (δ := Unit) shownKey (some "flow")
      .integer (some (.rational 0)) none (hne .nothing)
      (mixedKeys_different .nothing (by decide +kernel)) sample
    obtain ⟨t, c, hrun⟩ := hiff.mpr ⟨by decide +kernel, by decide +kernel, fun _ => hfits⟩
    obtain ⟨members, hmembers⟩ := hfamily t c hrun
    have hnames := map_eq_of_forall₂ hmembers.requested fun _ _ hx => hx.name_eq.symm
    refine ⟨t, c, members, hrun, hmembers, hnames.symm.trans ?_⟩
    decide +kernel
  · obtain ⟨hiff, -, hleft⟩ := variableFamily_iff (L := String) (δ := Unit) shownKey (some "flow")
      .integer (some (.rational 0)) none (hne (.text "True_True"))
      (mixedKeys_different (.text "True_True") (by decide +kernel)) sample
    have hclash : ¬((product (mixedKeys (.text "True_True"))).map
        (memberText shownKey (some "flow"))).Nodup := by decide +kernel
    rcases hrun : flows (.text "True_True") with ⟨e | t, c⟩
    · rw [hleft e c hrun]
      exact ⟨e, rfl⟩
    · exact absurd (hiff.mp ⟨t, c, hrun⟩).1 hclash

end Builder
end LinModel
