import LinModel.Proofs.Builder.VariableFamilies
import LinModel.Proofs.Tensor.Dimensions
import LinModel.Proofs.Tensor.Provision

/-!
# Names of families without underscores

The name of a member joins the stem and the texts of its keys by underscores. If no text of a key
has an underscore, the texts can be read off the name again: behind the stem, which may have
underscores itself, they are what the underscores separate, empty texts included
(`familyName_inj`). So key tuples whose texts differ have different names, and a family whose
dimensions write their keys differently never gets into its own way: where no name is taken and the
bounds fit, it returns, unless its dimensions are refused as such
(`Builder.underscore_free_family`).

Key theorems: `familyName_inj`, `map_product`, `Builder.nodup_memberTexts`,
`Builder.underscore_free_family`.
-/
namespace LinModel

variable {L κ δ : Type}

/-! ### Texts between underscores -/

theorem toList_familyName_cons (stem text : String) (texts : List String) :
    (familyName stem (text :: texts)).toList
      = stem.toList ++ '_' :: ['_'].intercalate ((text :: texts).map String.toList) := by
  have hsplit : familyName stem (text :: texts)
      = stem ++ "_" ++ String.intercalate "_" (text :: texts) := by
    unfold familyName
    exact String.intercalate_cons_cons
  have hseparator : "_".toList = ['_'] := rfl
  rw [hsplit, String.toList_append, String.toList_append, String.toList_intercalate, hseparator,
    List.append_assoc, List.singleton_append]

theorem familyName_nil (stem : String) : familyName stem [] = stem := by
  unfold familyName
  exact String.intercalate_singleton

/-- **Texts without underscores are read off a name again**, whatever its stem. -/
theorem familyName_inj {stem : String} {texts texts' : List String}
    (h : ∀ text ∈ texts, '_' ∉ text.toList) (h' : ∀ text ∈ texts', '_' ∉ text.toList)
    (heq : familyName stem texts = familyName stem texts') : texts = texts' := by
  have hchars : (familyName stem texts).toList = (familyName stem texts').toList := by rw [heq]
  cases texts with
  | nil =>
    cases texts' with
    | nil => rfl
    | cons text' texts' =>
      simp [familyName_nil, toList_familyName_cons] at hchars
  | cons text texts =>
    cases texts' with
    | nil =>
      simp [familyName_nil, toList_familyName_cons] at hchars
    | cons text' texts' =>
      rw [toList_familyName_cons, toList_familyName_cons] at hchars
      have hjoined := List.tail_eq_of_cons_eq (List.append_cancel_left hchars)
      have hparts : ∀ {l : List String}, (∀ text ∈ l, '_' ∉ text.toList) → l ≠ [] →
          (['_'].intercalate (l.map String.toList)).splitOn '_' = l.map String.toList := by
        intro l hl hne
        exact List.splitOn_intercalate '_' (by simpa using hl) (by simpa using hne)
      have hlists : (text :: texts).map String.toList = (text' :: texts').map String.toList := by
        rw [← hparts h (List.cons_ne_nil _ _), hjoined, hparts h' (List.cons_ne_nil _ _)]
      exact (List.map_inj_right fun _ _ => String.toList_inj.mp).mp hlists

/-! ### Different names -/

theorem map_product {κ' : Type} (f : κ → κ') : ∀ dims : List (List κ),
    (product dims).map (List.map f) = product (dims.map (List.map f))
  | [] => rfl
  | domain :: dims => by
    have ih := map_product f dims
    rw [List.map_cons, product, product, ← ih]
    simp [List.map_flatMap, List.flatMap_map, Function.comp_def]

theorem nodup_product [BEq κ] [LawfulBEq κ] {dims : List (List κ)}
    (h : ∀ domain ∈ dims, domain.Nodup) : (product dims).Nodup := by
  have hdifferent : ∀ domain ∈ dims, AllDifferent domain := fun domain hmem =>
    (h domain hmem).imp fun hne => beq_false_of_ne hne
  refine (pairwise_product hdifferent).imp ?_
  rintro keys _ hbefore rfl
  exact lt_irrefl _ hbefore

namespace Builder

variable {text : κ → String} {dims : List (List κ)}

/-- **No two members have the same name** if the keys of each dimension are written differently and
without underscores. -/
theorem nodup_memberTexts (stem : Option String)
    (h : ∀ domain ∈ dims, (domain.map text).Nodup ∧ ∀ k ∈ domain, '_' ∉ (text k).toList) :
    ((product dims).map (memberText text stem)).Nodup := by
  have htexts : (product (dims.map (List.map text))).Nodup :=
    nodup_product (List.forall_mem_map.mpr fun domain hmem => (h domain hmem).1)
  have hplain : ∀ texts ∈ product (dims.map (List.map text)), ∀ t ∈ texts, '_' ∉ t.toList := by
    intro texts hmem t ht
    obtain ⟨_, hwords, htword⟩ := exists_mem_of_forall₂ (mem_product_iff.mp hmem) ht
    obtain ⟨domain, hdomain, rfl⟩ := List.mem_map.mp hwords
    obtain ⟨k, hk, rfl⟩ := List.mem_map.mp htword
    exact (h domain hdomain).2 k hk
  have hnames : (product dims).map (memberText text stem)
      = (product (dims.map (List.map text))).map (familyName (stem.getD "x")) := by
    rw [← map_product, List.map_map]
    rfl
  rw [hnames]
  exact htexts.map_on fun texts hmem texts' hmem' =>
    familyName_inj (hplain texts hmem) (hplain texts' hmem')

/-! ### Families that do not fail -/

variable [Key κ] {stem : Option String} {kind : VariableKind} {lower upper : Option Extended}
  {b : Builder Extended L}

theorem exists_variableFamily [ReflBEq κ] (hproper : Tensor.AreProper none dims)
    (hdifferent : ((product dims).map (memberText text stem)).Nodup)
    (hfree : ∀ keys ∈ product dims, memberText text stem keys ∉ b.names.map (·.text))
    (hfits : Variable.Fits kind lower upper) :
    ∃ (t : Tensor κ δ (Variable Extended)) (c : Builder Extended L),
      runFrom (variableFamily text dims stem kind lower upper) b = (.ok t, c) := by
  have hdims : ∀ domain ∈ dims, AllDifferent domain ∧ ∀ k ∈ domain, Key.usable k = true :=
    fun domain hmem => ⟨hproper.different domain hmem, hproper.usable domain hmem⟩
  have hmember : ∀ keys ∈ product dims,
      ∃ x, Variable.IsRequested kind lower upper (memberText text stem keys) x :=
    fun keys hkeys =>
      Variable.exists_isRequested kind lower upper (memberText_ne_empty hproper.nonempty hkeys)
  obtain ⟨members, hmembers⟩ := exists_forall₂ hmember
  have hpass := (declareTuples_eq_ok (κ := κ) (b := b) hproper.nonempty).mpr
    ⟨⟨hdifferent, hfree, fun _ => hfits⟩, hmembers, rfl⟩
  obtain ⟨grid, hgrid⟩ := Grid.exists_grid hproper.different hpass
  have hgenerate := (generateMembers_eq_ok (δ := δ) hproper.nonempty hdims).mpr ⟨grid, hgrid, rfl⟩
  exact ⟨_, _, variableFamily_eq_ok.mpr hgenerate⟩

theorem variableFamily_of_refused {e : TensorError κ}
    (h : Tensor.checkDimensions dims none = .error e) :
    runFrom (variableFamily (δ := δ) text dims stem kind lower upper) b
      = (.error (.keys e), b) := by
  have hrun : (runFrom (generateMembers (L := L) (δ := δ) text stem kind lower upper dims) b).1
      = .error (.keys e) := by
    unfold generateMembers Tensor.generate
    rw [h]
    rfl
  rw [runFrom_variableFamily]
  rcases hmembers : runFrom (generateMembers (δ := δ) text stem kind lower upper dims) b
    with ⟨e' | t, c⟩
  · rw [hmembers] at hrun
    cases hrun
    rfl
  · rw [hmembers] at hrun
    cases hrun

/-- **A family does not get into its own way** if the keys of each dimension are written differently
and without underscores: whatever its stem, no two of its names are the same. Where none of them is
registered and the bounds fit, a family of any kind returns, or its dimensions are refused as such
and the builder is what it was; no name of a member is a reason to fail. -/
theorem underscore_free_family [ReflBEq κ] (text : κ → String) (stem : Option String)
    (hdims : ∀ domain ∈ dims,
      (domain.map text).Nodup ∧ ∀ k ∈ domain, '_' ∉ (text k).toList) :
    ((product dims).map (memberText text stem)).Nodup ∧
      ∀ (kind : VariableKind) (lower upper : Option Extended) (b : Builder Extended L),
        (∀ keys ∈ product dims, memberText text stem keys ∉ b.names.map (·.text)) →
        Variable.Fits kind lower upper →
          (∃ (t : Tensor κ δ (Variable Extended)) (c : Builder Extended L),
            runFrom (variableFamily text dims stem kind lower upper) b = (.ok t, c)) ∨
          ∃ e, Tensor.checkDimensions dims none = .error e ∧
            runFrom (variableFamily (δ := δ) text dims stem kind lower upper) b
              = (.error (.keys e), b) := by
  have hnames := nodup_memberTexts stem hdims
  refine ⟨hnames, fun kind lower upper b hfree hfits => ?_⟩
  cases hcheck : Tensor.checkDimensions dims none with
  | ok _ =>
    have hproper := Tensor.checkDimensions_eq_ok_iff.mp hcheck
    exact .inl (exists_variableFamily hproper hnames hfree hfits)
  | error e => exact .inr ⟨e, rfl, variableFamily_of_refused hcheck⟩

/-- A stem with an underscore, a text that is empty, and a key that is none: the family of booleans
has its four members on the sample. -/
theorem gates_are_apart :
    (product [[PlainKey.text "a", .text ""], [.truth true, .nothing]]).map
        (memberText shownKey (some "gate_1"))
      = ["gate_1_a_True", "gate_1_a_None", "gate_1__True", "gate_1__None"] ∧
    ∃ (t : Tensor PlainKey Unit (Variable Extended)) (c : Builder Extended String),
      runFrom (variableFamily shownKey [[.text "a", .text ""], [.truth true, .nothing]]
        (some "gate_1") .boolean none none) sample = (.ok t, c) := by
  have hdims : ∀ domain ∈ [[PlainKey.text "a", .text ""], [.truth true, .nothing]],
      (domain.map shownKey).Nodup ∧ ∀ k ∈ domain, '_' ∉ (shownKey k).toList := by
    decide +kernel
  have hfits : Variable.Fits .boolean (none : Option Extended) none := ⟨rfl, rfl⟩
  have hfree : ∀ keys ∈ product [[PlainKey.text "a", .text ""], [.truth true, .nothing]],
      memberText shownKey (some "gate_1") keys ∉ sample.names.map (·.text) := by
    decide +kernel
  refine ⟨by decide +kernel, ?_⟩
  obtain ⟨-, hfamily⟩ := underscore_free_family (L := String) (δ := Unit) shownKey (some "gate_1")
    hdims
  obtain hreturns | ⟨e, he, -⟩ := hfamily .boolean none none sample hfree hfits
  · exact hreturns
  · have hproper : (Tensor.checkDimensions
        [[PlainKey.text "a", .text ""], [.truth true, .nothing]] none).isOk = true := by
      decide +kernel
    rw [he] at hproper
    cases hproper

end Builder
end LinModel
