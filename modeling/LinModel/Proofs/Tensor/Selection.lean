import LinModel.Proofs.Tensor.Composition
import LinModel.Proofs.Tensor.FiniteMap
import LinModel.Proofs.Tensor.Order

/-!
# A sub-tensor lists the matching values

Selectors that are accepted choose a key in some dimensions and keep the others. Of all that a
tensor stores, the sub-tensor lists what has the chosen keys in their places, under the keys of the
dimensions that are kept, and nothing else: each value once, in the lexicographic order of the
domains, however the tensor was filled (`Tensor.Reachable.selects`). What is not stored is not
listed, whatever provider the tensor has: with another provider, or none, the same is listed.

A look-up in the sub-tensor is one in the tensor with the chosen keys put back, and both look up
what is listed; keys that are the same as a key tuple with the chosen keys put back are those that
agree with the choices and are the same in the open places (`beq_fillChoices_iff`).

Key definitions: `HasChosen`, `Tensor.Selects`.
Key theorems: `beq_fillChoices_iff`, `Tensor.isOrdered_of_narrow?`, `Tensor.lists_iff_of_narrow?`,
`Tensor.Reachable.selects`.
-/
namespace LinModel

variable {κ δ α : Type} [Key κ]

/-! ### Keys that agree with choices -/

/-- Keys that are the same as the chosen ones in their places. -/
def HasChosen (choices : List (Option κ)) (keys : List κ) : Prop :=
  List.Forall₂ (fun c key => ∀ k, c = some k → (key == k) = true) choices keys

/-- **Keys are the same as a filled key tuple** if they agree with the choices and are the same in
the open places. -/
theorem beq_fillChoices_iff : ∀ {choices : List (Option κ)} {full keys : List κ},
    full.length = choices.length → keys.length = openPlaces choices →
      ((full == fillChoices choices keys) = true ↔
        HasChosen choices full ∧ (openKeys choices full == keys) = true)
  | [], [], [], _, _ => ⟨fun _ => ⟨.nil, rfl⟩, fun _ => rfl⟩
  | some k :: choices, key :: full, keys, hfull, hkeys => by
    have ih : (full == fillChoices choices keys) = true ↔
        HasChosen choices full ∧ (openKeys choices full == keys) = true :=
      beq_fillChoices_iff (Nat.succ.inj hfull) hkeys
    have hchosen : HasChosen (some k :: choices) (key :: full) ↔
        (key == k) = true ∧ HasChosen choices full := by
      simp [HasChosen]
    rw [fillChoices, List.cons_beq_cons, Bool.and_eq_true_iff, ih, hchosen, openKeys, and_assoc]
  | none :: choices, key :: full, k :: keys, hfull, hkeys => by
    have ih : (full == fillChoices choices keys) = true ↔
        HasChosen choices full ∧ (openKeys choices full == keys) = true :=
      beq_fillChoices_iff (Nat.succ.inj hfull) (Nat.succ.inj hkeys)
    have hchosen : HasChosen (none :: choices) (key :: full) ↔ HasChosen choices full := by
      simp [HasChosen]
    rw [fillChoices, List.cons_beq_cons, Bool.and_eq_true_iff, ih, hchosen, openKeys,
      List.cons_beq_cons, Bool.and_eq_true_iff]
    tauto

theorem belong_openKeys : ∀ {dims : List (List κ)} {choices : List (Option κ)} {keys : List κ},
    choices.length = dims.length → Belong dims keys →
      Belong (keptDimensions dims choices) (openKeys choices keys)
  | [], [], _, _, _ => .nil
  | domain :: dims, some k :: choices, key :: keys, hlen, .cons _ hkeys => by
    have ih := belong_openKeys (Nat.succ.inj hlen) hkeys
    exact ih
  | domain :: dims, none :: choices, key :: keys, hlen, .cons hkey hkeys =>
    .cons hkey (belong_openKeys (Nat.succ.inj hlen) hkeys)

/-! ### What is selected -/

namespace Tensor

/-- A tensor lists what another stores under the chosen keys. -/
structure Selects (t s : Tensor κ δ α) (choices : List (Option κ)) : Prop where
  /-- The dimensions without a chosen key, in their order. -/
  dimensions_eq : s.dimensions = keptDimensions t.dimensions choices
  /-- What is stored under the chosen keys is listed under the others, and nothing else is. -/
  lists_iff : ∀ keys value, s.Lists keys value ↔
    ∃ item ∈ t.items, HasChosen choices item.1 ∧
      (LinModel.openKeys choices item.1 == keys) = true ∧ item.2 = value
  /-- No key tuple is listed twice. -/
  different : AllDifferent (s.items.map Prod.fst)
  /-- The key tuples are listed in the order of the domains. -/
  ordered : (s.items.map Prod.fst).Pairwise (Before s.dimensions)

variable {t s : Tensor κ δ α}

def withFallback {δ' : Type} (t : Tensor κ δ α) (fallback : Option (Fallback κ δ')) :
    Tensor κ δ' α := ⟨t.dimensions, t.grid, fallback, t.wildcard⟩

theorem subTensor_withFallback {δ' : Type} {selectors : List (Selector κ)}
    (h : t.subTensor selectors = .ok s) (fallback : Option (Fallback κ δ')) :
    ∃ s' : Tensor κ δ' α, (t.withFallback fallback).subTensor selectors = .ok s' ∧
      s'.items = s.items := by
  obtain ⟨hlen, choices, hchoices, hnarrow⟩ := exists_choices h
  obtain ⟨bare, hbare, rfl⟩ := Option.map_eq_some_iff.mp hnarrow
  let s' : Tensor κ δ' α :=
    ⟨keptDimensions t.dimensions choices, (Grid.narrow t.dimensions choices t.grid).getD bare,
      fallback.map fun f => ⟨f.provider, refineChoices f.choices choices⟩, t.wildcard⟩
  have hnarrow' : (t.withFallback fallback).narrow? choices = some s' := by
    unfold narrow? withFallback
    rw [hbare]
    rfl
  have hchoices' : ((t.withFallback fallback).chooseAll 0 t.dimensions selectors).toOption
      = some choices := by
    rw [chooseAll_congr (s := t.withFallback fallback) (t := t) rfl, hchoices]
  have hlen' : selectors.length ≤ (t.withFallback fallback).rank := hlen
  refine ⟨s', toOption_eq_some.mp ?_, rfl⟩
  rw [subTensor_toOption hlen']
  exact Option.bind_eq_some_iff.mpr ⟨choices, hchoices', hnarrow'⟩

omit [Key κ] in
theorem isOrdered_bareGrid {dims : List (List κ)} {bare : Grid κ α dims}
    (h : bareGrid? dims = some bare) : bare.IsOrdered dims := by
  cases dims with
  | nil => cases h
  | cons domain dims =>
    cases h
    exact ⟨List.nil_sublist _, List.forall_mem_nil _⟩

variable {choices : List (Option κ)}

theorem isOrdered_of_narrow? (h : t.narrow? choices = some s) :
    s.grid.IsOrdered s.dimensions := by
  obtain ⟨bare, hbare, rfl⟩ := Option.map_eq_some_iff.mp h
  cases hgrid : Grid.narrow t.dimensions choices t.grid with
  | some narrowed => exact Grid.isOrdered_narrow hgrid
  | none => exact isOrdered_bareGrid hbare

theorem lookup_of_narrow? [PartialEquivBEq κ] (hlen : choices.length = t.dimensions.length)
    (h : t.narrow? choices = some s) {keys : List κ} (hkeys : Belong s.dimensions keys) :
    s.grid.lookup s.dimensions keys = t.grid.lookup t.dimensions (fillChoices choices keys) := by
  obtain ⟨bare, hbare, rfl⟩ := Option.map_eq_some_iff.mp h
  exact lookup_narrowed hlen hbare hkeys t.grid

/-- **What a narrowed tensor lists** is what the tensor lists under the chosen keys. -/
theorem lists_iff_of_narrow? [EquivBEq κ] (ht : t.IsFiniteMap) (hs : s.IsFiniteMap)
    (hlen : choices.length = t.dimensions.length) (h : t.narrow? choices = some s)
    (keys : List κ) (value : α) :
    s.Lists keys value ↔ ∃ item ∈ t.items, HasChosen choices item.1 ∧
      (LinModel.openKeys choices item.1 == keys) = true ∧ item.2 = value := by
  have hdims : s.dimensions = keptDimensions t.dimensions choices := (narrow?_eq_some h).1
  by_cases hkeys : Belong s.dimensions keys
  · have hcount : keys.length = LinModel.openPlaces choices := by
      rw [← length_keptDimensions hlen, ← hdims]
      exact hkeys.length_eq.symm
    have hlisted : ∀ item ∈ t.items,
        ((item.1 == fillChoices choices keys) = true ↔
          HasChosen choices item.1 ∧ (LinModel.openKeys choices item.1 == keys) = true) := by
      intro item hitem
      have hfull : item.1.length = choices.length :=
        (ht.belong item hitem).length_eq.symm.trans hlen.symm
      exact beq_fillChoices_iff hfull hcount
    calc s.Lists keys value
        ↔ s.grid.lookup s.dimensions keys = some value :=
          (Grid.lookup_eq_some_iff hs.tidy.grid).symm
      _ ↔ t.Lists (fillChoices choices keys) value := by
          rw [lookup_of_narrow? hlen h hkeys]
          exact Grid.lookup_eq_some_iff ht.tidy.grid
      _ ↔ _ := exists_congr fun item => by
          rw [and_congr_right_iff]
          intro hitem
          rw [hlisted item hitem, and_assoc]
  · -- neither side is about keys of other dimensions
    refine iff_of_false ?_ ?_
    · rintro ⟨item, hitem, hsame, -⟩
      exact hkeys ((hs.belong item hitem).congr hsame)
    · rintro ⟨item, hitem, -, hsame, -⟩
      have hopen := belong_openKeys hlen (ht.belong item hitem)
      exact hkeys (hdims ▸ hopen.congr hsame)

/-- **A sub-tensor lists exactly the matching values**, in the order of the domains. For every
tensor that can be got and all selectors that it accepts, there are the choices of these: what is
stored under the chosen keys is listed under the others, each value once and in lexicographic order;
whichever fallback the tensor has, the same is listed. -/
theorem Reachable.selects [EquivBEq κ] (ht : t.Reachable) {selectors : List (Selector κ)}
    (hs : t.subTensor selectors = .ok s) :
    (∃ choices, t.Chooses t.dimensions selectors choices ∧ t.Selects s choices) ∧
      ∀ {δ' : Type} (fallback : Option (Fallback κ δ')), ∃ s' : Tensor κ δ' α,
        (t.withFallback fallback).subTensor selectors = .ok s' ∧ s'.items = s.items := by
  refine ⟨?_, fun fallback => subTensor_withFallback hs fallback⟩
  obtain ⟨choices, bare, hchoices, hbare, hnarrowed⟩ := subTensor_eq_ok hs
  have hnarrow : t.narrow? choices = some s :=
    Option.map_eq_some_iff.mpr ⟨bare, hbare, hnarrowed.symm⟩
  have hmap := ht.isFiniteMap
  have hsub := (Reachable.subTensor ht hs).isFiniteMap
  exact ⟨choices, hchoices, {
    dimensions_eq := (narrow?_eq_some hnarrow).1
    lists_iff := lists_iff_of_narrow? hmap hsub hchoices.length_choices hnarrow
    different := hsub.different
    ordered := (pairwise_product hsub.tidy.domains).sublist
      (Grid.sublist_product (isOrdered_of_narrow? hnarrow)) }⟩

/-- A tensor that has a provider and stores its second key first, the first one as a truth value. -/
def shelf : Except (TensorError PlainKey) (Tensor PlainKey Unit Nest) :=
  ofNested Nest.view [[.number 1, .number 2, .number 3], [.text "a", .text "b"]]
    (.node [(.number 2, .node [(.text "b", .leaf 5), (.text "a", .leaf 6)]),
      (.truth true, .node [(.text "a", .leaf 7)]), (.number 3, .node [(.text "b", .leaf 8)])])
    (some ()) none

/-- Under the text `a` two values are listed, the one of the first key first. -/
theorem shelf_selects : ∃ t s, shelf = .ok t ∧ t.subTensor [.any, .key (.text "a")] = .ok s ∧
    (s.items.map Prod.fst == [[.number 1], [.number 2]]) = true ∧
    (∃ choices, t.Chooses t.dimensions [.any, .key (.text "a")] choices ∧ t.Selects s choices) ∧
    ∃ s' : Tensor PlainKey Empty Nest,
      (t.withFallback none).subTensor [.any, .key (.text "a")] = .ok s' ∧ s'.items = s.items := by
  have hrun : (shelf.toOption.bind fun t =>
      (t.subTensor [.any, .key (.text "a")]).toOption.map fun s =>
        s.items.map Prod.fst == [[.number 1], [.number 2]]) = some true := by
    decide +kernel
  obtain ⟨t, ht, hrun⟩ := Option.bind_eq_some_iff.mp hrun
  obtain ⟨s, hs, hkeys⟩ := Option.map_eq_some_iff.mp hrun
  have ht := toOption_eq_some.mp ht
  have hs := toOption_eq_some.mp hs
  obtain ⟨hselects, hsame⟩ := Reachable.selects (.ofNested ht) hs
  exact ⟨t, s, ht, hs, hkeys, hselects, hsame none⟩

end Tensor
end LinModel
