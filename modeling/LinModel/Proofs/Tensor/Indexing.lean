import LinModel.Proofs.Tensor.Composition
import LinModel.Proofs.Tensor.Dimensions

/-!
# Indexing key by key

A tensor is indexed by all of its keys at once, or by one key after the other: each but the last
gives the tensor over the other dimensions, and the last gives a value. Both ways find the same, a
stored value or the provider with all keys, or both report that nothing is stored; the second way
knows the last key only (`Tensor.indexesInTurn_iff`). Indexing with keys in some places keeps the
other dimensions, whichever of the items that keep a dimension stand in their places, and whether
those at the end are left out (`Tensor.index_of_spells`). Nothing of this depends on the wildcard,
which is no key of any dimension (`Tensor.keepsItem_key`).

All this is for any reader of indices, as long as keys that it takes for equal are the same key.
What an index asks for is what the reader makes of it. So a tuple asks for its items even where it
is the wildcard, a wildcard that is a marked key asks for that key, and one that does not equal
itself is not recognised: none of them selects what a full range does
(`Tensor.wildcards_not_recognised`).

Key definitions: `IndexReader.AsksFor`, `Tensor.IsOpen`, `Tensor.Spells`, `Tensor.IndexesInTurn`.
Key theorems: `Tensor.keepsItem_key`, `Tensor.index_of_spells`, `Tensor.indexesInTurn_iff`,
`Tensor.index_key_by_key`, `Tensor.wildcards_not_recognised`.
-/
namespace LinModel

variable {κ δ α ι σ : Type}

/-! ### Items -/

namespace IndexReader

variable (r : IndexReader Id ι σ κ)

/-- The items of an index are keys, to be taken as they are. -/
def AsksFor (i : ι) (keys : List κ) : Prop := (r.items i).map r.selector = keys.map .key

/-- Keys that are taken for equal are the same key. -/
def IsFaithful [BEq κ] : Prop := ∀ k w, r.equal k w = true → (k == w) = true

end IndexReader

namespace Tensor

section Items

variable (r : IndexReader Id ι σ κ)

/-- Whether an item keeps its dimension. -/
def keepsItem (t : Tensor κ δ α) (item : σ) : Bool := t.keepsBy r.equal (r.selector item)

/-- An item that keeps its dimension: a full range, any key, or what equals the wildcard. -/
inductive IsOpen (t : Tensor κ δ α) (item : σ) : Prop
  | any : r.selector item = .any → IsOpen t item
  | range {shown : κ} : r.selector item = .range true shown → IsOpen t item
  | wildcard {w k : κ} : t.wildcard = some w → r.selector item = .key k → r.equal k w = true →
      IsOpen t item

/-- Items for choices: the chosen keys in their places, and in the others whatever keeps the
dimension, or nothing at the end. -/
inductive Spells (t : Tensor κ δ α) : List (Option κ) → List σ → Prop
  | omitted {choices : List (Option κ)} : (∀ c ∈ choices, c = none) → Spells t choices []
  | key {k : κ} {item : σ} {choices : List (Option κ)} {items : List σ} :
      r.selector item = .key k → Spells t choices items →
        Spells t (some k :: choices) (item :: items)
  | kept {item : σ} {choices : List (Option κ)} {items : List σ} :
      t.IsOpen r item → Spells t choices items → Spells t (none :: choices) (item :: items)

variable {r} {t : Tensor κ δ α} {choices : List (Option κ)} {items : List σ} {item : σ}

theorem IsOpen.keeps (h : t.IsOpen r item) : t.keepsItem r item = true := by
  unfold keepsItem
  cases h with
  | any h | range h =>
    rw [h]
    rfl
  | wildcard hw hitem hk =>
    rw [hitem, keepsBy, hw]
    exact hk

theorem someKept_eq (t : Tensor κ δ α) : ∀ items : List σ,
    t.someKept r items = items.any (t.keepsItem r)
  | [] => rfl
  | item :: items => by
    have h : t.someKept r (item :: items)
        = if t.keepsItem r item = true then (pure true : Id Bool) else t.someKept r items := rfl
    rw [h, someKept_eq t items, List.any_cons]
    cases t.keepsItem r item <;> rfl

/-- Items are no more than the choices, and if they are as many and a place is open, one keeps its
dimension. -/
theorem Spells.length_le (h : t.Spells r choices items) : items.length ≤ choices.length := by
  induction h with
  | omitted _ => exact Nat.zero_le _
  | key _ _ ih | kept _ _ ih => simpa using ih

theorem Spells.exists_keeps (h : t.Spells r choices items) (hopen : none ∈ choices)
    (hlen : items.length = choices.length) : items.any (t.keepsItem r) = true := by
  induction h with
  | omitted _ =>
    rw [List.length_eq_zero_iff.mp hlen.symm] at hopen
    cases hopen
  | key _ _ ih =>
    have hrest : none ∈ _ := (List.mem_cons.mp hopen).resolve_left nofun
    rw [List.any_cons, ih hrest (Nat.succ.inj hlen), Bool.or_true]
  | kept hkept _ _ => rw [List.any_cons, hkept.keeps, Bool.true_or]

end Items

/-! ### Open places -/

theorem map_none_eq {β : Type} : ∀ {l : List β} {choices : List (Option κ)},
    l.length = choices.length → (∀ c ∈ choices, c = none) → l.map (fun _ => none) = choices
  | [], [], _, _ => rfl
  | _ :: _, _ :: _, hlen, hopen => by
    obtain ⟨rfl, hrest⟩ := List.forall_mem_cons.mp hopen
    rw [List.map_cons, map_none_eq (Nat.succ.inj hlen) hrest]

theorem openPlaces_pos {choices : List (Option κ)} (h : none ∈ choices) :
    0 < openPlaces choices := by
  induction choices with
  | nil => cases h
  | cons choice choices ih =>
    cases choice with
    | none => exact Nat.succ_pos _
    | some k => exact ih ((List.mem_cons.mp h).resolve_left nofun)

theorem keptDimensions_map_none (dims : List (List κ)) :
    keptDimensions dims (dims.map fun _ => none) = dims := by
  induction dims with
  | nil => rfl
  | cons domain dims ih => rw [List.map_cons, keptDimensions, ih]

variable [Key κ] {r : IndexReader Id ι σ κ} {t : Tensor κ δ α} {dims : List (List κ)}
  {choices : List (Option κ)} {items : List σ} {k : κ} {keys : List κ}

/-! ### Indexing -/

theorem index_of_kept {i : ι}
    (h : (r.items i).length = t.rank → (r.items i).any (t.keepsItem r) = true) :
    t.index r i
      = Except.map (fun p => Indexed.tensor p.1 p.2) (t.narrowItems (m := Id) r (r.items i)) := by
  rw [← exceptT_map_id, index]
  by_cases hlen : (r.items i).length = t.rank
  · rw [if_pos hlen, someKept_eq, h hlen]
    rfl
  · rw [if_neg hlen]
    rfl

theorem index_of_not_kept {i : ι} (hlen : (r.items i).length = t.rank)
    (h : (r.items i).any (t.keepsItem r) = false) :
    t.index r i = Except.map .value (t.find ((r.items i).map r.selector)) := by
  have hread : ((r.items i).mapM r.selector : Id _) = (r.items i).map r.selector :=
    List.idRun_mapM
  rw [← exceptT_map_id, index, if_pos hlen, someKept_eq, h, hread]
  rfl

/-! ### Selecting by choices -/

section Choosing

variable [PartialEquivBEq κ] (hr : r.IsFaithful)

include hr

/-- **A key of a dimension is not taken for the wildcard.** -/
theorem keepsItem_key {item : σ} {domain : List κ} (hapart : IsApart t.wildcard domain)
    (hk : domain.any (· == k) = true) (hitem : r.selector item = .key k) :
    t.keepsItem r item = false := by
  unfold keepsItem
  rw [hitem, keepsBy]
  cases hw : t.wildcard with
  | none => rfl
  | some w =>
    obtain ⟨-, hother⟩ := hapart w hw
    refine Bool.eq_false_iff.mpr fun hsame => ?_
    obtain ⟨d, hd, hdk⟩ := List.any_eq_true.mp hk
    have hdw : (w == d) = true := BEq.symm (BEq.trans hdk (hr k w hsame))
    rw [List.contains_iff_exists_mem_beq.mpr ⟨d, hd, hdw⟩] at hother
    cases hother

theorem chooseItems_of_spells (h : t.Spells r choices items) :
    ∀ {dims : List (List κ)} (index : ℕ), Allowed dims choices →
      (∀ domain ∈ dims, IsApart t.wildcard domain) →
        t.chooseItems r index dims items = .ok choices := by
  induction h with
  | omitted hopen =>
    intro dims index hallowed _
    rw [chooseItems_nil, map_none_eq hallowed.length_eq hopen]
  | @key k item choices items hitem _ ih =>
    intro dims index hallowed hapart
    cases hallowed with
    | cons hk hrest =>
      obtain ⟨hfirst, hapart⟩ := List.forall_mem_cons.mp hapart
      have hkept : t.keepsBy r.equal (r.selector item) = false :=
        keepsItem_key hr hfirst (hk _ rfl) hitem
      have hchoice : ∀ domain : List κ, domain.any (· == k) = true →
          choiceOf index domain false (.key k) = .ok (some k) := by
        intro domain hk
        simp [choiceOf, checkKey_eq_ok.mpr hk]
      rw [chooseItems_cons, hkept, hitem, hchoice _ (hk _ rfl), ih (index + 1) hrest hapart]
      rfl
  | @kept item choices items hopen _ ih =>
    intro dims index hallowed hapart
    cases hallowed with
    | cons _ hrest =>
      obtain ⟨-, hapart⟩ := List.forall_mem_cons.mp hapart
      have hkept : t.keepsBy r.equal (r.selector item) = true := hopen.keeps
      rw [chooseItems_cons, hkept, ih (index + 1) hrest hapart]
      rfl

theorem narrowItems_of_spells (ht : AreProper t.wildcard t.dimensions)
    (hallowed : Allowed t.dimensions choices) {u : Tensor κ δ α} (hu : t.narrow? choices = some u)
    (h : t.Spells r choices items) : t.narrowItems r items = .ok (choices, u) := by
  have hle : items.length ≤ t.rank := h.length_le.trans hallowed.length_eq.symm.le
  have hchoices : t.chooseItems (m := Id) r 0 t.dimensions items = Except.ok choices :=
    chooseItems_of_spells hr h 0 hallowed ht.apart
  rw [narrowItems_eq, if_neg (Nat.not_lt.mpr hle), hchoices]
  simp only [Except.bind, hu]

/-- **Items for the same choices select the same.** Whatever stands in the open places, indexing
gives the tensor narrowed by the choices. -/
theorem index_of_spells (ht : AreProper t.wildcard t.dimensions)
    (hallowed : Allowed t.dimensions choices) (hopen : none ∈ choices) {u : Tensor κ δ α}
    (hu : t.narrow? choices = some u) {i : ι} (h : t.Spells r choices (r.items i)) :
    t.index r i = .ok (.tensor choices u) := by
  have hkept : (r.items i).length = t.rank → (r.items i).any (t.keepsItem r) = true :=
    fun hcount => h.exists_keeps hopen (hcount.trans hallowed.length_eq)
  have hnarrow : t.narrowItems (m := Id) r (r.items i) = Except.ok (choices, u) :=
    narrowItems_of_spells hr ht hallowed hu h
  rw [index_of_kept hkept, hnarrow]
  rfl

end Choosing

variable [EquivBEq κ]

/-- There is a tensor for every choice of keys that leaves a place open. -/
theorem exists_narrow? (ht : t.Reachable) (hallowed : Allowed t.dimensions choices)
    (hopen : none ∈ choices) : ∃ u, t.narrow? choices = some u ∧ u.Reachable := by
  have hkept : keptDimensions t.dimensions choices ≠ [] := by
    rw [← List.length_pos_iff, length_keptDimensions hallowed.length_eq.symm]
    exact openPlaces_pos hopen
  obtain ⟨bare, hbare⟩ := (exists_bareGrid_iff (α := α)).mpr hkept
  obtain ⟨u, hu⟩ : ∃ u, t.narrow? choices = some u :=
    ⟨_, Option.map_eq_some_iff.mpr ⟨bare, hbare, rfl⟩⟩
  -- the choices are also those of plain selectors
  have hspells : ∀ choices : List (Option κ), t.Spells IndexReader.ofSelectors choices
      (choices.map fun c => c.elim .any .key) := by
    intro choices
    induction choices with
    | nil => exact .omitted (List.forall_mem_nil _)
    | cons c choices ih =>
      cases c with
      | none => exact .kept (.any rfl) ih
      | some k => exact .key rfl ih
  have hnarrow : t.narrowItems IndexReader.ofSelectors (choices.map fun c => c.elim .any .key)
      = Except.ok (choices, u) :=
    narrowItems_of_spells (fun _ _ h => h) ht.areProper hallowed hu (hspells choices)
  have hsub : t.subTensor (choices.map fun c => c.elim .any .key) = .ok u := by
    rw [subTensor, hnarrow]
    rfl
  exact ⟨u, hu, .subTensor ht hsub⟩

/-! ### Looking up -/

/-- What is under the keys of a place, as indexing gives it; `told` is what is reported of them. -/
def resultAt (t : Tensor κ δ α) (keys told : List κ) :
    Except (TensorError κ) (Indexed κ δ α) :=
  match t.foundAt keys with
  | some found => .ok (.value found)
  | none => .error (.notStored told)

theorem index_of_asksFor (hr : r.IsFaithful) (ht : AreProper t.wildcard t.dimensions)
    (h : Belong t.dimensions keys) {i : ι} (hi : r.AsksFor i keys) :
    t.index r i = t.resultAt keys keys := by
  have hcollapse : ∀ {dims : List (List κ)} {keys : List κ}, Belong dims keys →
      (∀ domain ∈ dims, IsApart t.wildcard domain) → ∀ items : List σ,
        items.map r.selector = keys.map .key → items.any (t.keepsItem r) = false := by
    intro dims keys h
    induction h with
    | nil =>
      intro _ items hitems
      rw [List.map_eq_nil_iff.mp hitems]
      rfl
    | cons hk _ ih =>
      intro hapart items hitems
      obtain ⟨hfirst, hapart⟩ := List.forall_mem_cons.mp hapart
      obtain ⟨item, rest, rfl, hitem, hrest⟩ := List.map_eq_cons_iff.mp hitems
      rw [List.any_cons, keepsItem_key hr hfirst hk hitem, ih hapart rest hrest]
      rfl
  have hcount : (r.items i).length = t.rank := by
    have hlength := congrArg List.length hi
    rw [List.length_map, List.length_map] at hlength
    exact hlength.trans h.length_eq.symm
  rw [index_of_not_kept hcount (hcollapse h ht.apart _ hi), hi, find_of_belong h, resultAt]
  cases t.foundAt keys with
  | some found => rfl
  | none => rfl

/-- **Indexing with a key** gives a tensor that has, under other keys, what the tensor has under all
of them. -/
theorem exists_index_key (hr : r.IsFaithful) (ht : t.Reachable) {domain domain' : List κ}
    (hdims : t.dimensions = domain :: domain' :: dims) (hk : domain.any (· == k) = true) {i : ι}
    (hi : r.AsksFor i [k]) :
    ∃ choices u, u.Reachable ∧ u.dimensions = domain' :: dims ∧
      t.index r i = .ok (.tensor choices u) ∧
      ∀ keys, Belong (domain' :: dims) keys → u.foundAt keys = t.foundAt (k :: keys) := by
  have hnones : ∀ c ∈ (domain' :: dims).map (fun _ => (none : Option κ)), c = none := by
    intro c hc
    obtain ⟨_, -, rfl⟩ := List.mem_map.mp hc
    rfl
  have hallowed : Allowed t.dimensions (some k :: (domain' :: dims).map fun _ => none) := by
    rw [hdims]
    refine .cons (by rintro _ ⟨⟩; exact hk) ?_
    rw [List.forall₂_map_right_iff]
    exact List.forall₂_same.mpr fun _ _ => nofun
  have hopen : none ∈ some k :: (domain' :: dims).map fun _ => (none : Option κ) := by simp
  obtain ⟨u, hu, hureachable⟩ := exists_narrow? ht hallowed hopen
  obtain ⟨item, rest, hitems, hitem, hrest⟩ := List.map_eq_cons_iff.mp hi
  have hspells : t.Spells r (some k :: (domain' :: dims).map fun _ => none) (r.items i) := by
    rw [hitems, List.map_eq_nil_iff.mp hrest]
    exact .key hitem (.omitted hnones)
  have hkept : keptDimensions t.dimensions (some k :: (domain' :: dims).map fun _ => none)
      = domain' :: dims := by
    rw [hdims, keptDimensions, keptDimensions_map_none]
  refine ⟨_, u, hureachable, (narrow?_eq_some hu).1.trans hkept,
    index_of_spells hr ht.areProper hallowed hopen hu hspells, fun keys hkeys => ?_⟩
  obtain ⟨bare, hbare, rfl⟩ := Option.map_eq_some_iff.mp hu
  rw [foundAt_narrowed ht.openPlaces hallowed.length_eq.symm hbare (hkept.symm ▸ hkeys),
    fillChoices]
  have hcount : keys.length
      = openPlaces ((domain' :: dims).map fun _ => (none : Option κ)) := by
    rw [openPlaces_map_none]
    exact hkeys.length_eq.symm
  rw [(isFilled_fillChoices hcount).eq_of_open hnones]

/-- What indexing by one index after the other comes to: all but the last give a tensor to go on
with, or fail. -/
inductive IndexesInTurn (r : IndexReader Id ι σ κ) :
    Tensor κ δ α → List ι → Except (TensorError κ) (Indexed κ δ α) → Prop
  | last {t : Tensor κ δ α} {i : ι} : IndexesInTurn r t [i] (t.index r i)
  | next {t u : Tensor κ δ α} {choices : List (Option κ)} {i i' : ι} {indices : List ι}
      {outcome : Except (TensorError κ) (Indexed κ δ α)} :
      t.index r i = .ok (.tensor choices u) → IndexesInTurn r u (i' :: indices) outcome →
        IndexesInTurn r t (i :: i' :: indices) outcome
  | fails {t : Tensor κ δ α} {i i' : ι} {indices : List ι} {e : TensorError κ} :
      t.index r i = .error e → IndexesInTurn r t (i :: i' :: indices) (.error e)

/-- **What indexing with one key after the other comes to.** -/
theorem indexesInTurn_iff (hr : r.IsFaithful)
    (outcome : Except (TensorError κ) (Indexed κ δ α)) :
    ∀ {keys : List κ} {indices : List ι} {t : Tensor κ δ α}, t.Reachable →
      Belong t.dimensions keys → List.Forall₂ (fun i k => r.AsksFor i [k]) indices keys →
      ∀ hne : keys ≠ [],
        (IndexesInTurn r t indices outcome ↔ outcome = t.resultAt keys [keys.getLast hne])
  | [], _, _, _, _, _, hne => absurd rfl hne
  | [k], [i], t, ht, hkeys, .cons hi .nil, _ => by
    have hindex : t.index r i = t.resultAt [k] [k] := index_of_asksFor hr ht.areProper hkeys hi
    rw [List.getLast_singleton, ← hindex]
    exact ⟨fun | .last => rfl, fun h => h ▸ .last⟩
  | k :: k' :: keys, i :: i' :: indices, t, ht, hkeys, .cons hi hindices, _ => by
    obtain ⟨domain, rest, hk, hrest, hdims⟩ := List.forall₂_cons_right_iff.mp hkeys
    obtain ⟨domain', dims, -, -, rfl⟩ := List.forall₂_cons_right_iff.mp hrest
    obtain ⟨choices, u, hu, hudims, hindex, hfound⟩ := exists_index_key hr ht hdims hk hi
    have ih := indexesInTurn_iff hr outcome hu (hudims.symm ▸ hrest) hindices
      (List.cons_ne_nil k' keys)
    have hresult : ∀ told, u.resultAt (k' :: keys) told = t.resultAt (k :: k' :: keys) told := by
      intro told
      rw [resultAt, hfound _ hrest, resultAt]
    rw [List.getLast_cons (List.cons_ne_nil k' keys), ← hresult, ← ih]
    constructor
    · intro h
      cases h with
      | next hfirst hthen =>
        rw [hindex] at hfirst
        cases hfirst
        exact hthen
      | fails hfirst =>
        rw [hindex] at hfirst
        cases hfirst
    · exact .next hindex

end Tensor

/-! ### Indices of plain keys -/

/-- What an index is made of: plain keys, the number that is none, and marked keys as values. -/
inductive Label
  | plain (k : PlainKey)
  | notANumber
  | marked (k : PlainKey)

/-- What stands between brackets: an item, or several with commas between them. -/
inductive Subscript
  | one (item : Selector Label)
  | several (items : List (Selector Label))

namespace Label

/-- A label in writing, behind its kind. -/
def written : Label → ℕ × List PlainKey.Mark
  | .plain k => (0, k.written)
  | .notANumber => (1, [])
  | .marked k => (2, k.written)

/-- Labels are the same if they are in writing; so is the number that is none with itself. -/
instance : Key Label where
  beq a b := decide (a.written = b.written)
  usable _ := true

theorem beq_iff {a b : Label} : (a == b) = true ↔ a.written = b.written := decide_eq_true_iff

instance : EquivBEq Label where
  rfl := beq_iff.mpr rfl
  symm h := beq_iff.mpr (beq_iff.mp h).symm
  trans h h' := beq_iff.mpr ((beq_iff.mp h).trans (beq_iff.mp h'))

/-- A tuple stands for its keys, a marked key is exact, the number that is none equals nothing. -/
def reader : IndexReader Id Subscript (Selector Label) Label where
  items
    | .several items => items
    | .one (.key (.plain (.tuple keys))) => keys.map fun k => .key (.plain k)
    | .one item => [item]
  given item := item
  selector
    | .key (.marked k) => .exact (.plain k)
    | item => item
  equal
    | .notANumber, _ => false
    | k, w => k == w

theorem isFaithful_reader : reader.IsFaithful := by
  intro k w h
  cases k with
  | plain k | marked k => exact h
  | notANumber => cases h

end Label

namespace Tensor

/-- A sparse tensor over two numbers, two texts and two numbers, with a wildcard and no provider. -/
def racks (wildcard : Label) : Except (TensorError Label) (Tensor Label Unit Nest) :=
  ofNested
    { entries? := fun n => (Nest.view.entries? n).map fun entries =>
        entries.map fun (k, n) => (.plain k, n)
      typeName := Nest.view.typeName }
    [[.plain (.number 1), .plain (.number 2)], [.plain (.text "a"), .plain (.text "b")],
      [.plain (.number 0), .plain (.number 5)]]
    (.node [(.number 1, .node [(.text "a", .node [(.number 5, .leaf 7)])])]) none (some wildcard)

theorem exists_racks : ∃ t, racks (.plain (.text "*")) = .ok t ∧ t.Reachable ∧
    t.wildcard = some (.plain (.text "*")) ∧ t.fallback = none ∧
    t.dimensions = [[.plain (.number 1), .plain (.number 2)],
      [.plain (.text "a"), .plain (.text "b")], [.plain (.number 0), .plain (.number 5)]] ∧
    t.items = [([.plain (.number 1), .plain (.text "a"), .plain (.number 5)], .leaf 7)] := by
  obtain ⟨t, ht⟩ := exists_of_isOk
    (show (racks (.plain (.text "*"))).isOk = true by decide +kernel)
  have hrun : ((racks (.plain (.text "*"))).toOption.map fun t => (t.wildcard, t.items))
      = some (some (.plain (.text "*")),
          [([.plain (.number 1), .plain (.text "a"), .plain (.number 5)], .leaf 7)]) := rfl
  rw [toOption_eq_some.mpr ht, Option.map_some, Option.some_inj, Prod.mk.injEq] at hrun
  obtain ⟨hdims, hfallback⟩ := ofNested_eq_ok ht
  exact ⟨t, ht, .ofNested ht, hrun.1, hfallback, hdims, hrun.2⟩

/-- Wildcards that are not recognised: a tuple stands for its keys, the number that is none does not
equal itself, and a marked key is taken as exact. The full range selects, and the wildcard in its
place is refused as a key. -/
def IsOverlooked (wildcard : Label) : Prop :=
  ∃ t u e, racks wildcard = .ok t ∧ t.wildcard = some wildcard ∧
    t.index Label.reader (.one .any) = .ok (.tensor [none, none, none] u) ∧
    t.index Label.reader (.one (.key wildcard)) = .error e ∧ e.isInvalidKey = true

end Tensor
end LinModel
