import LinModel.Proofs.Tensor.Reachable

/-!
# Reading through a sub-tensor is reading the tensor

A sub-tensor is read by the keys of the dimensions that are left. Reading it finds what the tensor
finds under these keys with the chosen ones put back, and nothing if the tensor finds nothing
(`Tensor.find_subTensor_toOption`). A reading is refused for its keys only
(`Tensor.isInvalidKey_of_find`). That holds for any keys whose `==` is symmetric and transitive, so
a key may be given in another form than it is stored in.

The argument goes along the dimensions. A kept dimension lists the keys of its domain, and the one
that a key is the same as has what is stored under the key (`Grid.find?_keep`); a chosen one is
passed through. So a narrowed grid looks up what the grid does (`Grid.lookup_narrow`). The keys that
are checked are the same ones (`Tensor.Chooses.exactKeys_fullKeys`), and filling the places that a
sub-tensor of a sub-tensor leaves open fills those of the first (`fillChoices_refineChoices`).

Key definitions: `Tensor.fullKeys`, `Tensor.foundAt`, `TensorError.isInvalidKey`.
Key theorems: `fillChoices_refineChoices`, `Grid.lookup_narrow`,
`Tensor.Chooses.exactKeys_fullKeys`, `Tensor.find_subTensor_toOption`.
-/
namespace LinModel

variable {κ δ α : Type}

/-- Filling the places left open by choices fills the open places with the filled choices. -/
theorem fillChoices_refineChoices : ∀ {outer inner : List (Option κ)} (keys : List κ),
    inner.length = openPlaces outer →
    fillChoices (refineChoices outer inner) keys = fillChoices outer (fillChoices inner keys)
  | [], [], _, _ => rfl
  | some k :: outer, inner, keys, h => by
    rw [openPlaces_some] at h
    rw [refineChoices, fillChoices, fillChoices, fillChoices_refineChoices keys h]
  | none :: outer, [], _, h => by simp at h
  | none :: outer, some k :: inner, keys, h => by
    rw [openPlaces_none, List.length_cons] at h
    rw [refineChoices, fillChoices, fillChoices, fillChoices,
      fillChoices_refineChoices keys (by omega)]
  | none :: outer, none :: inner, [], _ => rfl
  | none :: outer, none :: inner, k :: keys, h => by
    rw [openPlaces_none, List.length_cons] at h
    rw [refineChoices, fillChoices, fillChoices, fillChoices,
      fillChoices_refineChoices keys (by omega)]

/-- Keys that belong to their dimensions. -/
def Belong [Key κ] (dims : List (List κ)) (keys : List κ) : Prop :=
  List.Forall₂ (fun domain k => domain.any (· == k) = true) dims keys

/-! ### Grids -/

section Grids

variable [Key κ] [PartialEquivBEq κ]

theorem Entries.find?_congr {β : Type} {k k' : κ} (h : (k == k') = true) :
    ∀ entries : Entries κ β, find? k entries = find? k' entries
  | [] => rfl
  | (key, value) :: rest => by
    rw [find?_cons, find?_cons, BEq.congr_right h, find?_congr h rest]

/-- Among the narrowed children of a domain's keys, a key of the domain finds what is stored under
it. -/
theorem Grid.find?_children {γ β : Type} (f : γ → Option β) (entries : Entries κ γ) (k : κ) :
    ∀ domain : List κ, Entries.find? k (domain.filterMap fun key =>
      ((Entries.find? key entries).bind f).map fun child => (key, child))
        = if domain.any (· == k) then (Entries.find? k entries).bind f else none
  | [] => rfl
  | key :: domain => by
    have ih := find?_children f entries k domain
    rw [List.filterMap_cons, List.any_cons]
    by_cases hkey : (key == k) = true
    · rw [Entries.find?_congr hkey, hkey, Bool.true_or, if_pos rfl]
      cases hfound : (Entries.find? k entries).bind f with
      | none =>
        rw [hfound, ite_self] at ih
        exact ih
      | some child => exact if_pos hkey
    · rw [Bool.eq_false_iff.mpr hkey, Bool.false_or, ← ih]
      cases (Entries.find? key entries).bind f with
      | none => rfl
      | some child => exact if_neg hkey

/-- A kept dimension has, under each key of its domain, the narrowed child stored under it. -/
theorem Grid.find?_keep {γ β : Type} (f : γ → Option β) (entries : Entries κ γ)
    {domain : List κ} {k : κ} (hk : domain.any (· == k) = true) :
    (narrow.keep domain f entries).bind (Entries.find? k) = (Entries.find? k entries).bind f := by
  have hfind := find?_children f entries k domain
  rw [if_pos hk] at hfind
  rw [← hfind]
  by_cases hempty : (domain.filterMap fun key =>
      ((Entries.find? key entries).bind f).map fun child => (key, child)).isEmpty = true
  · have hkeep : narrow.keep domain f entries = none := if_pos hempty
    rw [hkeep, List.isEmpty_iff.mp hempty]
    rfl
  · have hkeep : narrow.keep domain f entries = some _ := if_neg hempty
    rw [hkeep, Option.bind_some]

/-- **A narrowed grid looks up what the grid does** under the keys with the choices put back. -/
theorem Grid.lookup_narrow : ∀ {dims : List (List κ)} {choices : List (Option κ)} {keys : List κ},
    choices.length = dims.length → Belong (keptDimensions dims choices) keys →
    ∀ grid : Grid κ α dims,
      (narrow dims choices grid).bind (lookup (keptDimensions dims choices) keys)
        = lookup dims (fillChoices choices keys) grid
  | [], [], keys, _, hkeys, value => by
    cases hkeys
    rfl
  | domain :: dims, some k :: choices, keys, hlen, hkeys, grid => by
    have ih := lookup_narrow (Nat.succ.inj hlen) hkeys
    have hchosen : ∀ entries : Entries κ (Grid κ α dims),
        ((Entries.find? k entries).bind (narrow dims choices)).bind
            (lookup (keptDimensions dims choices) keys)
          = (Entries.find? k entries).bind (lookup dims (fillChoices choices keys)) := by
      intro entries
      rw [Option.bind_assoc]
      exact congrArg _ (funext ih)
    exact hchosen grid
  | domain :: dims, none :: choices, keys, hlen, hkeys, grid => by
    obtain ⟨k, ks, hk, hks, rfl⟩ := List.forall₂_cons_left_iff.mp hkeys
    have ih := lookup_narrow (Nat.succ.inj hlen) hks
    have hkept : ∀ entries : Entries κ (Grid κ α dims),
        (narrow.keep domain (narrow dims choices) entries).bind (fun children =>
            (Entries.find? k children).bind (lookup (keptDimensions dims choices) ks))
          = (Entries.find? k entries).bind (lookup dims (fillChoices choices ks)) := by
      intro entries
      rw [← Option.bind_assoc, find?_keep _ _ hk, Option.bind_assoc]
      exact congrArg _ (funext ih)
    exact hkept grid

end Grids

namespace Tensor

variable [Key κ]

/-! ### Keys that are checked -/

/-- The key of a selector, if it is one of the domain. -/
def keyIn? (domain : List κ) (s : Selector κ) : Option κ :=
  s.asKey?.filter fun k => domain.any (· == k)

/-- The keys that a lookup gets past its checks, whatever dimension it starts to count from. -/
theorem exactKeys_cons (index : ℕ) (domain : List κ) (dims : List (List κ)) (s : Selector κ)
    (selectors : List (Selector κ)) :
    (exactKeys index (domain :: dims) (s :: selectors)).toOption
      = (keyIn? domain s).bind fun k =>
          (exactKeys (index + 1) dims selectors).toOption.map (k :: ·) := by
  rw [exactKeys, keyIn?]
  cases s.asKey? with
  | none => rfl
  | some k =>
    by_cases hk : domain.any (· == k) = true
    · simp only [Option.filter_some, hk, ↓reduceIte, checkKey_eq_ok.mpr hk, ok_bind,
        Option.bind_some]
      cases exactKeys (index + 1) dims selectors with
      | ok keys => rfl
      | error e => rfl
    · have hcheck : checkKey index domain k = .error (.keyNotAllowed k index domain) := if_neg hk
      simp only [Option.filter_some, hk, Bool.false_eq_true, ↓reduceIte, hcheck, error_bind,
        Option.bind_none]
      rfl

/-- The given keys with the selectors that choose one put back in their places. Keys left over come
last. -/
def fullKeys (t : Tensor κ δ α) : List (Selector κ) → List (Selector κ) → List (Selector κ)
  | [], keys => keys
  | s :: selectors, [] =>
    if t.keeps s then fullKeys t selectors [] else s :: fullKeys t selectors []
  | s :: selectors, k :: keys =>
    if t.keeps s then k :: fullKeys t selectors keys else s :: fullKeys t selectors (k :: keys)

theorem fullKeys_chosen {t : Tensor κ δ α} {s : Selector κ} (h : t.keeps s = false)
    (selectors keys : List (Selector κ)) :
    t.fullKeys (s :: selectors) keys = s :: t.fullKeys selectors keys := by
  cases keys with
  | nil => simp [fullKeys, h]
  | cons k keys => simp [fullKeys, h]

theorem fullKeys_kept {t : Tensor κ δ α} {s : Selector κ} (h : t.keeps s = true)
    (selectors : List (Selector κ)) (k : Selector κ) (keys : List (Selector κ)) :
    t.fullKeys (s :: selectors) (k :: keys) = k :: t.fullKeys selectors keys := by
  simp [fullKeys, h]

variable {t s : Tensor κ δ α} {dims : List (List κ)} {selectors : List (Selector κ)}
  {choices : List (Option κ)}

/-- The full keys are as many as there are dimensions if the given ones fit the open places. -/
theorem Chooses.length_fullKeys (h : t.Chooses dims selectors choices) :
    ∀ keys, (t.fullKeys selectors keys).length + openPlaces choices
      = keys.length + dims.length := by
  induction h with
  | nil => exact fun keys => rfl
  | omitted h ih =>
    intro keys
    have hkeys := ih keys
    rw [fullKeys] at hkeys ⊢
    rw [openPlaces_none, List.length_cons]
    omega
  | kept hkeeps h ih =>
    intro keys
    cases keys with
    | nil =>
      have hkeys := ih []
      rw [fullKeys, if_pos hkeeps, openPlaces_none, List.length_cons]
      omega
    | cons k keys =>
      have hkeys := ih keys
      rw [fullKeys_kept hkeeps, openPlaces_none, List.length_cons, List.length_cons,
        List.length_cons]
      omega
  | chosen hkeeps hkey hmem h ih =>
    intro keys
    have hkeys := ih keys
    rw [fullKeys_chosen hkeeps, openPlaces_some, List.length_cons, List.length_cons]
    omega

/-- **The full keys are checked as the given ones are**, and are these with the choices put back. -/
theorem Chooses.exactKeys_fullKeys (h : t.Chooses dims selectors choices) :
    ∀ {keys : List (Selector κ)}, keys.length = openPlaces choices → ∀ i j,
      (exactKeys i dims (t.fullKeys selectors keys)).toOption
        = (exactKeys j (keptDimensions dims choices) keys).toOption.map (fillChoices choices) := by
  have hopen : ∀ {domain : List κ} {dims : List (List κ)} {choices : List (Option κ)}
      {k : Selector κ} {keys full : List (Selector κ)} (i j : ℕ),
      (∀ i j, (exactKeys i dims full).toOption
        = (exactKeys j (keptDimensions dims choices) keys).toOption.map (fillChoices choices)) →
      (exactKeys i (domain :: dims) (k :: full)).toOption
        = (exactKeys j (keptDimensions (domain :: dims) (none :: choices)) (k :: keys)).toOption.map
            (fillChoices (none :: choices)) := by
    intro domain dims choices k keys full i j ih
    rw [keptDimensions, exactKeys_cons, exactKeys_cons, Option.map_bind]
    refine congrArg _ (funext fun key => ?_)
    rw [ih (i + 1) (j + 1), Option.map_map, Function.comp_apply, Option.map_map]
    rfl
  induction h with
  | nil =>
    intro keys hlen i j
    cases List.length_eq_zero_iff.mp hlen
    rfl
  | omitted h ih =>
    intro keys hlen i j
    cases keys with
    | nil => cases hlen
    | cons k keys => exact hopen i j (ih (Nat.succ.inj hlen))
  | kept hkeeps h ih =>
    intro keys hlen i j
    cases keys with
    | nil => cases hlen
    | cons k keys =>
      rw [fullKeys_kept hkeeps]
      exact hopen i j (ih (Nat.succ.inj hlen))
  | @chosen domain _ selector _ k _ hkeeps hkey hmem h ih =>
    intro keys hlen i j
    rw [openPlaces_some] at hlen
    have hin : keyIn? domain selector = some k := by
      rw [keyIn?, hkey, Option.filter_some, if_pos hmem]
    rw [fullKeys_chosen hkeeps, exactKeys_cons, hin, Option.bind_some, keptDimensions,
      ih hlen (i + 1) j, Option.map_map]
    rfl

theorem belong_of_exactKeys : ∀ {index : ℕ} {dims : List (List κ)} {selectors : List (Selector κ)}
    {keys : List κ}, selectors.length = dims.length →
    (exactKeys index dims selectors).toOption = some keys → Belong dims keys
  | _, [], [], keys, _, h => by
    cases h
    exact .nil
  | index, domain :: dims, s :: selectors, keys, hlen, h => by
    rw [exactKeys_cons] at h
    obtain ⟨k, hk, h⟩ := Option.bind_eq_some_iff.mp h
    obtain ⟨rest, hrest, rfl⟩ := Option.map_eq_some_iff.mp h
    exact .cons (Option.filter_eq_some_iff.mp hk).2
      (belong_of_exactKeys (Nat.succ.inj hlen) hrest)

theorem asKey?_of_exactKeys : ∀ {index : ℕ} {dims : List (List κ)} {selectors : List (Selector κ)}
    {keys : List κ}, selectors.length = dims.length →
    (exactKeys index dims selectors).toOption = some keys →
    selectors.map Selector.asKey? = keys.map some
  | _, [], [], keys, _, h => by
    cases h
    rfl
  | index, domain :: dims, s :: selectors, keys, hlen, h => by
    rw [exactKeys_cons] at h
    obtain ⟨k, hk, h⟩ := Option.bind_eq_some_iff.mp h
    obtain ⟨rest, hrest, rfl⟩ := Option.map_eq_some_iff.mp h
    rw [List.map_cons, List.map_cons, (Option.filter_eq_some_iff.mp hk).1,
      asKey?_of_exactKeys (Nat.succ.inj hlen) hrest]

/-! ### Reading -/

/-- What a tensor has under the keys of a place. -/
def foundAt (t : Tensor κ δ α) (keys : List κ) : Option (Found κ δ α) :=
  match t.grid.lookup t.dimensions keys, t.fallback with
  | some value, _ => some (.stored value)
  | none, some f => some (.missing f.provider (fillChoices f.choices keys))
  | none, none => none

/-- A lookup with a key per dimension finds what is under the keys that pass the checks. -/
theorem find_eq {t : Tensor κ δ α} {selectors : List (Selector κ)}
    (hlen : selectors.length = t.rank) :
    t.find selectors = exactKeys 0 t.dimensions selectors >>= fun keys =>
      match t.foundAt keys with
      | some found => .ok found
      | none => .error (.notStored keys) := by
  unfold find
  rw [if_neg (not_not.mpr hlen)]
  refine congrArg (exactKeys 0 t.dimensions selectors >>= ·) (funext fun keys => ?_)
  rw [foundAt]
  cases t.grid.lookup t.dimensions keys with
  | some value => rfl
  | none =>
    cases t.fallback with
    | some f => rfl
    | none => rfl

theorem find_toOption {t : Tensor κ δ α} {selectors : List (Selector κ)}
    (hlen : selectors.length = t.rank) :
    (t.find selectors).toOption
      = (exactKeys 0 t.dimensions selectors).toOption.bind t.foundAt := by
  rw [find_eq hlen]
  cases exactKeys 0 t.dimensions selectors with
  | error e => rfl
  | ok keys =>
    rw [ok_bind]
    show _ = t.foundAt keys
    cases t.foundAt keys with
    | some found => rfl
    | none => rfl

theorem lookup_bareGrid {dims : List (List κ)} {bare : Grid κ α dims}
    (h : bareGrid? dims = some bare) (keys : List κ) : bare.lookup dims keys = none := by
  cases dims with
  | nil => cases h
  | cons domain dims =>
    cases h
    cases keys with
    | nil => rfl
    | cons k keys => rfl

/-- What is narrowed, or nothing, has what the grid has under the keys with the choices put back. -/
theorem lookup_narrowed [PartialEquivBEq κ] {dims : List (List κ)} {choices : List (Option κ)}
    (hlen : choices.length = dims.length) {bare : Grid κ α (keptDimensions dims choices)}
    (hbare : bareGrid? (keptDimensions dims choices) = some bare) {keys : List κ}
    (hkeys : Belong (keptDimensions dims choices) keys) (grid : Grid κ α dims) :
    ((Grid.narrow dims choices grid).getD bare).lookup (keptDimensions dims choices) keys
      = grid.lookup dims (fillChoices choices keys) := by
  rw [← Grid.lookup_narrow hlen hkeys]
  cases Grid.narrow dims choices grid with
  | some narrowed => rfl
  | none => exact lookup_bareGrid hbare keys

/-- **A narrowed tensor has what the tensor has** under the keys with the choices put back. -/
theorem foundAt_narrowed [PartialEquivBEq κ] {t : Tensor κ δ α}
    (hopen : ∀ f, t.fallback = some f → openPlaces f.choices = t.rank)
    {choices : List (Option κ)} (hlen : choices.length = t.dimensions.length)
    {bare : Grid κ α (keptDimensions t.dimensions choices)}
    (hbare : bareGrid? (keptDimensions t.dimensions choices) = some bare) {keys : List κ}
    (hkeys : Belong (keptDimensions t.dimensions choices) keys) :
    foundAt ⟨keptDimensions t.dimensions choices,
        (Grid.narrow t.dimensions choices t.grid).getD bare,
        t.fallback.map fun f => ⟨f.provider, refineChoices f.choices choices⟩, t.wildcard⟩ keys
      = t.foundAt (fillChoices choices keys) := by
  unfold foundAt
  rw [lookup_narrowed hlen hbare hkeys]
  cases t.grid.lookup t.dimensions (fillChoices choices keys) with
  | some value => rfl
  | none =>
    cases hf : t.fallback with
    | none => rfl
    | some f =>
      have hfill := fillChoices_refineChoices keys (hlen.trans (hopen f hf).symm)
      exact congrArg (fun full => some (Found.missing f.provider full)) hfill

end Tensor

/-- Whether an error is about the keys that a tensor was asked for. -/
def TensorError.isInvalidKey : TensorError κ → Bool
  | .keyNotAllowed .. | .wrongKeyCount .. | .needsExactKey _ | .notStored _ | .partialRange ..
  | .tooManySelectors .. => true
  | _ => false

namespace Tensor

variable [Key κ] {t s : Tensor κ δ α}

theorem isInvalidKey_of_exactKeys {e : TensorError κ} : ∀ {index : ℕ} {dims : List (List κ)}
    {selectors : List (Selector κ)}, exactKeys index dims selectors = .error e →
    e.isInvalidKey = true
  | index, domain :: dims, s :: selectors, h => by
    rw [exactKeys] at h
    cases hkey : s.asKey? with
    | none =>
      simp only [hkey] at h
      cases h
      rfl
    | some k =>
      simp only [hkey] at h
      rcases bind_eq_error.mp h with h | ⟨_, -, h⟩
      · unfold checkKey at h
        split_ifs at h
        cases h
        rfl
      · rcases bind_eq_error.mp h with h | ⟨rest, -, h⟩
        · exact isInvalidKey_of_exactKeys h
        · cases h

theorem isInvalidKey_of_find {selectors : List (Selector κ)} {e : TensorError κ}
    (h : t.find selectors = .error e) : e.isInvalidKey = true := by
  by_cases hlen : selectors.length = t.rank
  · rw [find_eq hlen] at h
    rcases bind_eq_error.mp h with h | ⟨keys, -, h⟩
    · exact isInvalidKey_of_exactKeys h
    · cases hfound : t.foundAt keys with
      | some found =>
        rw [hfound] at h
        cases h
      | none =>
        rw [hfound] at h
        cases h
        rfl
  · rw [find, if_pos hlen] at h
    cases h
    rfl

theorem find_of_length_ne {selectors : List (Selector κ)} (h : selectors.length ≠ t.rank) :
    (t.find selectors).toOption = none := by
  rw [find, if_pos h]
  rfl

/-- **A sub-tensor finds what the tensor finds** under the full keys, and nothing if it finds
nothing. -/
theorem find_subTensor_toOption [PartialEquivBEq κ] (ht : t.Reachable)
    {selectors : List (Selector κ)} (hs : t.subTensor selectors = .ok s)
    (keys : List (Selector κ)) :
    (s.find keys).toOption = (t.find (t.fullKeys selectors keys)).toOption := by
  obtain ⟨choices, bare, hchoices, hbare, hnarrowed⟩ := subTensor_eq_ok hs
  have hlen := hchoices.length_choices
  have hrank : s.rank = openPlaces choices := by
    rw [hnarrowed]
    exact length_keptDimensions hlen
  have hfull : (t.fullKeys selectors keys).length + openPlaces choices
      = keys.length + t.rank := hchoices.length_fullKeys keys
  by_cases hkeys : keys.length = openPlaces choices
  · rw [find_toOption (hkeys.trans hrank.symm), find_toOption (by omega),
      hchoices.exactKeys_fullKeys hkeys 0 0, Option.bind_map]
    have hdims : s.dimensions = keptDimensions t.dimensions choices := by rw [hnarrowed]
    rw [hdims]
    cases hexact : (exactKeys 0 (keptDimensions t.dimensions choices) keys).toOption with
    | none => rfl
    | some found =>
      have hcount : keys.length = (keptDimensions t.dimensions choices).length :=
        hkeys.trans (length_keptDimensions hlen).symm
      rw [hnarrowed]
      exact foundAt_narrowed ht.openPlaces hlen hbare (belong_of_exactKeys hcount hexact)
  · rw [find_of_length_ne (by omega), find_of_length_ne (by omega)]

end Tensor
end LinModel
