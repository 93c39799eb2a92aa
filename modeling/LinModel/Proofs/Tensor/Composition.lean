import LinModel.Proofs.Tensor.FiniteMap

/-!
# Selecting twice is selecting once

Selectors for a sub-tensor choose keys in the dimensions that the first selectors have kept. Put in
the places of these, they are selectors for the tensor itself, and select from it what both select
one after the other: the two tensors are the same, with all that is stored and with the fallback, or
neither exists because of the keys that are asked for (`Tensor.subTensor_subTensor`).

Choices combine by `refineChoices`, in any grouping (`refineChoices_assoc`), and the dimensions that
are left are the same (`keptDimensions_keptDimensions`). Narrowing a grid twice goes along the
dimensions (`Grid.narrow_narrow`): one that is kept twice lists the keys of its domain that have
something left in the end (`Grid.keep_keep`), and one that is kept first and chosen then finds what
was stored under the key. The dimensions of the two grids are equal, but not by computation, so the
two ways of narrowing are compared as functions whose types agree once the equation is known.

Key definitions: `Allowed`, `Tensor.replaceKept`, `Tensor.composed`,
`TensorError.isInvalidSelection`.
Key theorems: `refineChoices_assoc`, `Grid.keep_keep`, `Grid.narrow_narrow`,
`Tensor.narrow?_narrow?`, `Tensor.chooseAll_replaceKept`, `Tensor.subTensor_subTensor`.
-/
namespace LinModel

variable {κ δ α : Type}

/-! ### Choices one after the other -/

/-- Choices for the places that choices leave open may be put in before or after. -/
theorem refineChoices_assoc : ∀ {outer middle : List (Option κ)} (inner : List (Option κ)),
    middle.length = openPlaces outer →
    refineChoices (refineChoices outer middle) inner
      = refineChoices outer (refineChoices middle inner)
  | [], [], _, _ => rfl
  | some k :: outer, middle, inner, h => by
    rw [openPlaces_some] at h
    rw [refineChoices, refineChoices, refineChoices, refineChoices_assoc inner h]
  | none :: outer, [], _, h => by simp at h
  | none :: outer, some k :: middle, inner, h => by
    rw [openPlaces_none, List.length_cons] at h
    rw [refineChoices, refineChoices, refineChoices, refineChoices,
      refineChoices_assoc inner (by omega)]
  | none :: outer, none :: middle, [], h => by
    rw [openPlaces_none, List.length_cons] at h
    rw [refineChoices, refineChoices, refineChoices, refineChoices,
      refineChoices_assoc [] (by omega)]
  | none :: outer, none :: middle, c :: inner, h => by
    rw [openPlaces_none, List.length_cons] at h
    rw [refineChoices, refineChoices, refineChoices, refineChoices,
      refineChoices_assoc inner (by omega)]

theorem keptDimensions_keptDimensions : ∀ {dims : List (List κ)} {outer inner : List (Option κ)},
    outer.length = dims.length → inner.length = openPlaces outer →
    keptDimensions (keptDimensions dims outer) inner
      = keptDimensions dims (refineChoices outer inner)
  | [], [], [], _, _ => rfl
  | domain :: dims, some k :: outer, inner, hlen, h => by
    rw [keptDimensions, refineChoices, keptDimensions,
      keptDimensions_keptDimensions (Nat.succ.inj hlen) h]
  | domain :: dims, none :: outer, [], _, h => by simp at h
  | domain :: dims, none :: outer, some k :: inner, hlen, h => by
    rw [keptDimensions, keptDimensions, refineChoices, keptDimensions,
      keptDimensions_keptDimensions (Nat.succ.inj hlen) (Nat.succ.inj h)]
  | domain :: dims, none :: outer, none :: inner, hlen, h => by
    rw [keptDimensions, keptDimensions, refineChoices, keptDimensions,
      keptDimensions_keptDimensions (Nat.succ.inj hlen) (Nat.succ.inj h)]

/-- A choice in each dimension, of a key of its domain if any. -/
def Allowed [Key κ] (dims : List (List κ)) (choices : List (Option κ)) : Prop :=
  List.Forall₂ (fun domain c => ∀ k, c = some k → domain.any (· == k) = true) dims choices

/-! ### Grids narrowed twice -/

namespace Grid

section Keeping

variable [Key κ] [EquivBEq κ] {γ β ε : Type}

/-- **A dimension that is kept twice** lists the keys under which both steps leave something. -/
theorem keep_keep (f : γ → Option β) (g : β → Option ε) (domain : List κ)
    (entries : Entries κ γ) :
    (narrow.keep domain f entries).bind (narrow.keep domain g)
      = narrow.keep domain (fun child => (f child).bind g) entries := by
  have hfind : ∀ k ∈ domain, Entries.find? k (domain.filterMap fun key =>
      ((Entries.find? key entries).bind f).map fun child => (key, child))
        = (Entries.find? k entries).bind f := by
    intro k hk
    have hmem : (domain.any fun key => key == k) = true := List.any_eq_true.mpr ⟨k, hk, BEq.rfl⟩
    rw [find?_children, if_pos hmem]
  have htwice : (domain.filterMap fun k => ((Entries.find? k (domain.filterMap fun key =>
        ((Entries.find? key entries).bind f).map fun child => (key, child))).bind g).map
          fun child => (k, child))
      = domain.filterMap fun k =>
        ((Entries.find? k entries).bind fun child => (f child).bind g).map
          fun child => (k, child) := by
    refine List.filterMap_congr fun k hk => ?_
    rw [hfind k hk, Option.bind_assoc]
  by_cases hempty : (domain.filterMap fun key =>
      ((Entries.find? key entries).bind f).map fun child => (key, child)).isEmpty = true
  · have hkeep : narrow.keep domain f entries = none := if_pos hempty
    -- where the first step leaves nothing under any key, both steps do
    have hnone : (domain.filterMap fun k =>
        ((Entries.find? k entries).bind fun child => (f child).bind g).map
          fun child => (k, child)).isEmpty = true := by
      rw [← htwice, List.isEmpty_iff.mp hempty]
      simp
    rw [hkeep, Option.bind_none]
    exact (if_pos hnone).symm
  · have hkeep : narrow.keep domain f entries = some _ := if_neg hempty
    rw [hkeep, Option.bind_some]
    unfold narrow.keep
    rw [htwice]

end Keeping

/-- What is made of a way to narrow depends on that way only, also where the dimensions of its
results are equal but not by computation. -/
theorem heq_of_heq {γ : Type} {dims dims' : List (List κ)} (h : dims = dims')
    {f : γ → Option (Grid κ α dims)} {g : γ → Option (Grid κ α dims')} (hfg : HEq f g)
    {R : List (List κ) → Type} (make : ∀ dims, (γ → Option (Grid κ α dims)) → R dims) :
    HEq (make dims f) (make dims' g) := by
  subst h
  rw [eq_of_heq hfg]

variable [Key κ] [EquivBEq κ]

/-- **Narrowing twice is narrowing once** by the combined choices, whatever the grid. -/
theorem narrow_narrow : ∀ {dims : List (List κ)} {outer inner : List (Option κ)},
    outer.length = dims.length → inner.length = openPlaces outer →
    Allowed (keptDimensions dims outer) inner →
    HEq (fun grid : Grid κ α dims =>
        (narrow dims outer grid).bind (narrow (keptDimensions dims outer) inner))
      (fun grid : Grid κ α dims => narrow dims (refineChoices outer inner) grid)
  | [], [], [], _, _, _ => HEq.rfl
  | domain :: dims, some k :: outer, inner, hlen, h, hallowed => by
    have ih := narrow_narrow (Nat.succ.inj hlen) h hallowed
    have hdims := keptDimensions_keptDimensions (Nat.succ.inj hlen) h
    have hchosen : (fun grid : Grid κ α (domain :: dims) =>
        (narrow (domain :: dims) (some k :: outer) grid).bind
          (narrow (keptDimensions (domain :: dims) (some k :: outer)) inner))
      = fun entries => (Entries.find? k entries).bind fun grid =>
          (narrow dims outer grid).bind (narrow (keptDimensions dims outer) inner) :=
      funext fun entries => Option.bind_assoc ..
    rw [hchosen]
    exact heq_of_heq hdims ih fun _ f entries => (Entries.find? k entries).bind f
  | domain :: dims, none :: outer, [], _, h, _ => by simp at h
  | domain :: dims, none :: outer, some k :: inner, hlen, h, hallowed => by
    obtain ⟨hk, hrest⟩ := List.forall₂_cons.mp hallowed
    have ih := narrow_narrow (Nat.succ.inj hlen) (Nat.succ.inj h) hrest
    have hdims := keptDimensions_keptDimensions (Nat.succ.inj hlen) (Nat.succ.inj h)
    have hfound : ∀ entries : Entries κ (Grid κ α dims),
        (narrow.keep domain (narrow dims outer) entries).bind (fun children =>
            (Entries.find? k children).bind (narrow (keptDimensions dims outer) inner))
          = (Entries.find? k entries).bind fun grid =>
              (narrow dims outer grid).bind (narrow (keptDimensions dims outer) inner) := by
      intro entries
      rw [← Option.bind_assoc, find?_keep _ _ (hk k rfl), Option.bind_assoc]
    have hboth : (fun grid : Grid κ α (domain :: dims) =>
        (narrow (domain :: dims) (none :: outer) grid).bind
          (narrow (keptDimensions (domain :: dims) (none :: outer)) (some k :: inner)))
      = fun entries => (Entries.find? k entries).bind fun grid =>
          (narrow dims outer grid).bind (narrow (keptDimensions dims outer) inner) :=
      funext hfound
    rw [hboth]
    exact heq_of_heq hdims ih fun _ f entries => (Entries.find? k entries).bind f
  | domain :: dims, none :: outer, none :: inner, hlen, h, hallowed => by
    obtain ⟨-, hrest⟩ := List.forall₂_cons.mp hallowed
    have ih := narrow_narrow (Nat.succ.inj hlen) (Nat.succ.inj h) hrest
    have hdims := keptDimensions_keptDimensions (Nat.succ.inj hlen) (Nat.succ.inj h)
    have hkept : (fun grid : Grid κ α (domain :: dims) =>
        (narrow (domain :: dims) (none :: outer) grid).bind
          (narrow (keptDimensions (domain :: dims) (none :: outer)) (none :: inner)))
      = narrow.keep domain fun grid =>
          (narrow dims outer grid).bind (narrow (keptDimensions dims outer) inner) :=
      funext fun entries => keep_keep _ _ domain entries
    rw [hkept]
    exact heq_of_heq hdims ih fun _ f => narrow.keep domain f

end Grid

/-! ### Tensors narrowed twice -/

namespace Tensor

variable [Key κ]

theorem narrow_bareGrid {dims : List (List κ)} {bare : Grid κ α dims}
    (h : bareGrid? dims = some bare) (choices : List (Option κ)) :
    Grid.narrow dims choices bare = none := by
  cases dims with
  | nil => cases h
  | cons domain dims =>
    cases h
    have hkept : ∀ f : Grid κ α dims → Option (Grid κ α (keptDimensions dims choices.tail)),
        Grid.narrow.keep domain f [] = none := by
      intro f
      have hnothing : (domain.filterMap fun k =>
          ((Entries.find? k ([] : Entries κ (Grid κ α dims))).bind f).map
            fun child => (k, child)) = [] := by
        simp
      exact if_pos (List.isEmpty_iff.mpr hnothing)
    match choices with
    | [] => exact hkept _
    | none :: choices => exact hkept _
    | some k :: choices => rfl

/-- A narrowed tensor has the dimensions that are kept, and the wildcard. -/
theorem narrow?_eq_some {t s : Tensor κ δ α} {choices : List (Option κ)}
    (h : t.narrow? choices = some s) :
    s.dimensions = keptDimensions t.dimensions choices ∧ s.wildcard = t.wildcard := by
  obtain ⟨bare, -, rfl⟩ := Option.map_eq_some_iff.mp h
  exact ⟨rfl, rfl⟩

/-- **Narrowing a tensor twice is narrowing it once** by the combined choices. -/
theorem narrow?_narrow? [EquivBEq κ] {t s : Tensor κ δ α}
    (hopen : ∀ f, t.fallback = some f → openPlaces f.choices = t.rank)
    {outer inner : List (Option κ)} (hlen : outer.length = t.rank)
    (hs : t.narrow? outer = some s) (hinner : inner.length = openPlaces outer)
    (hallowed : Allowed s.dimensions inner) :
    s.narrow? inner = t.narrow? (refineChoices outer inner) := by
  obtain ⟨bare, hbare, rfl⟩ := Option.map_eq_some_iff.mp hs
  have hnarrow := Grid.narrow_narrow (α := α) hlen hinner hallowed
  have hdims := keptDimensions_keptDimensions hlen hinner
  have hgrid : Grid.narrow (keptDimensions t.dimensions outer) inner
        ((Grid.narrow t.dimensions outer t.grid).getD bare)
      = (Grid.narrow t.dimensions outer t.grid).bind
          (Grid.narrow (keptDimensions t.dimensions outer) inner) := by
    cases Grid.narrow t.dimensions outer t.grid with
    | none => exact narrow_bareGrid hbare inner
    | some grid => rfl
  have hfallback :
      (t.fallback.map fun f => Fallback.mk f.provider (refineChoices f.choices outer)).map
          (fun f => Fallback.mk f.provider (refineChoices f.choices inner))
        = t.fallback.map fun f =>
            ⟨f.provider, refineChoices f.choices (refineChoices outer inner)⟩ := by
    cases hf : t.fallback with
    | none => rfl
    | some f =>
      simp only [Option.map_some, refineChoices_assoc inner (hlen.trans (hopen f hf).symm)]
  unfold narrow?
  simp only [hgrid, hfallback]
  exact eq_of_heq (Grid.heq_of_heq hdims hnarrow fun dims f => (bareGrid? dims).map fun bare =>
    Tensor.mk dims ((f t.grid).getD bare) _ t.wildcard)

/-! ### Selectors in the places of selectors -/

/-- The selectors, those that keep their dimension replaced by others in order. Others left over
come last. -/
def replaceKept (t : Tensor κ δ α) : List (Selector κ) → List (Selector κ) → List (Selector κ)
  | [], inner => inner
  | s :: outer, [] => s :: replaceKept t outer []
  | s :: outer, c :: inner =>
    if t.keeps s then c :: replaceKept t outer inner else s :: replaceKept t outer (c :: inner)

/-- Selectors for a sub-tensor as selectors for the tensor: the first ones, one for each dimension,
with the others in the places of those that keep theirs. -/
def composed (t : Tensor κ δ α) (outer inner : List (Selector κ)) : List (Selector κ) :=
  t.replaceKept (outer ++ List.replicate (t.rank - outer.length) .any) inner

theorem replaceKept_chosen {t : Tensor κ δ α} {s : Selector κ} (h : t.keeps s = false)
    (outer inner : List (Selector κ)) :
    t.replaceKept (s :: outer) inner = s :: t.replaceKept outer inner := by
  cases inner with
  | nil => rfl
  | cons c inner => simp [replaceKept, h]

theorem replaceKept_kept {t : Tensor κ δ α} {s : Selector κ} (h : t.keeps s = true)
    (outer : List (Selector κ)) (c : Selector κ) (inner : List (Selector κ)) :
    t.replaceKept (s :: outer) (c :: inner) = c :: t.replaceKept outer inner := by
  simp [replaceKept, h]

variable {t s : Tensor κ δ α}

theorem choose_toOption (t : Tensor κ δ α) (i j : ℕ) (domain : List κ) (c : Selector κ) :
    (t.choose i domain c).toOption = (t.choose j domain c).toOption := by
  have hkey : ∀ k, ((checkKey i domain k) >>= fun _ => .ok (some k) : Except _ _).toOption
      = ((checkKey j domain k) >>= fun _ => .ok (some k) : Except (TensorError κ) _).toOption := by
    intro k
    unfold checkKey
    split <;> rfl
  unfold choose choiceOf
  by_cases hkeeps : t.keeps c = true
  · rw [if_pos hkeeps, if_pos hkeeps]
  · rw [if_neg hkeeps, if_neg hkeeps]
    cases c with
    | key k | exact k => exact hkey k
    | any | range _ _ => rfl

theorem chooseAll_cons (t : Tensor κ δ α) (i : ℕ) (domain : List κ) (dims : List (List κ))
    (c : Selector κ) (selectors : List (Selector κ)) :
    (t.chooseAll i (domain :: dims) (c :: selectors)).toOption
      = (t.choose i domain c).toOption.bind fun choice =>
          (t.chooseAll (i + 1) dims selectors).toOption.map (choice :: ·) := by
  rw [chooseAll_eq]
  cases t.choose i domain c with
  | error e => rfl
  | ok choice =>
    rw [ok_bind]
    cases t.chooseAll (i + 1) dims selectors with
    | error e => rfl
    | ok choices => rfl

theorem chooseAll_congr {δ' α' : Type} {s : Tensor κ δ' α'} (h : s.wildcard = t.wildcard) :
    ∀ (i : ℕ) (dims : List (List κ)) (selectors : List (Selector κ)),
    s.chooseAll i dims selectors = t.chooseAll i dims selectors := by
  have hkeeps : s.keeps = t.keeps := by
    funext c
    cases c with
    | key k =>
      unfold keeps keepsBy
      rw [h]
    | exact k | any | range _ _ => rfl
  have hchoose : ∀ i domain c, s.choose i domain c = t.choose i domain c := by
    intro i domain c
    unfold choose
    rw [hkeeps]
  intro i dims selectors
  induction selectors generalizing i dims with
  | nil => rw [chooseAll_nil, chooseAll_nil]
  | cons c selectors ih =>
    cases dims with
    | nil => rfl
    | cons domain dims =>
      rw [chooseAll_eq, chooseAll_eq, hchoose]
      simp only [ih]

/-- Selectors that are left out keep their dimensions as if they were given. -/
theorem chooseAll_complete (t : Tensor κ δ α) : ∀ (i : ℕ) (dims : List (List κ))
    (outer : List (Selector κ)), outer.length ≤ dims.length →
    (t.chooseAll i dims (outer ++ List.replicate (dims.length - outer.length) .any)).toOption
      = (t.chooseAll i dims outer).toOption
  | _, [], [], _ => rfl
  | i, domain :: dims, [], _ => by
    have ih := chooseAll_complete t (i + 1) dims [] (Nat.zero_le _)
    have hkept : t.choose i domain .any = .ok none := rfl
    rw [chooseAll_nil] at ih ⊢
    simp only [List.nil_append, List.length_nil, Nat.sub_zero, List.length_cons] at ih ⊢
    rw [List.replicate_succ, chooseAll_cons, hkept, ih]
    rfl
  | i, domain :: dims, c :: outer, hlen => by
    rw [List.cons_append, chooseAll_cons, chooseAll_cons, List.length_cons, List.length_cons,
      Nat.add_sub_add_right, chooseAll_complete t (i + 1) dims outer (Nat.le_of_succ_le_succ hlen)]

/-- **Selectors in the places of others choose what these choose one after the other**, or are
refused as the inner ones are. -/
theorem chooseAll_replaceKept {dims : List (List κ)} {outer : List (Selector κ)} {i : ℕ}
    {choices : List (Option κ)} (hlen : outer.length = dims.length)
    (h : (t.chooseAll i dims outer).toOption = some choices) {inner : List (Selector κ)}
    (hinner : inner.length ≤ openPlaces choices) (j k : ℕ) :
    (t.chooseAll j dims (t.replaceKept outer inner)).toOption
      = (t.chooseAll k (keptDimensions dims choices) inner).toOption.map
          (refineChoices choices) := by
  induction dims generalizing outer i choices inner j k with
  | nil =>
    cases List.length_eq_zero_iff.mp hlen
    cases h
    cases List.length_eq_zero_iff.mp (Nat.le_zero.mp hinner)
    rfl
  | cons domain dims ih =>
    cases outer with
    | nil => cases hlen
    | cons c outer =>
      rw [chooseAll_cons] at h
      obtain ⟨choice, hchoice, h⟩ := Option.bind_eq_some_iff.mp h
      obtain ⟨rest, hrest, rfl⟩ := Option.map_eq_some_iff.mp h
      have hchoose : ∀ j, (t.choose j domain c).toOption = some choice := fun j =>
        (t.choose_toOption j i domain c).trans hchoice
      rcases choose_eq_ok (toOption_eq_some.mp hchoice) with
        ⟨hkeeps, rfl⟩ | ⟨hkeeps, key, -, -, rfl⟩
      · cases inner with
        | nil =>
          have hnone : ([] : List (Selector κ)).length ≤ openPlaces rest := Nat.zero_le _
          have ih := ih (Nat.succ.inj hlen) hrest hnone (j + 1) (k + 1)
          rw [replaceKept, chooseAll_cons, hchoose, Option.bind_some, ih, keptDimensions,
            chooseAll_nil, chooseAll_nil]
          rfl
        | cons c' inner =>
          have ih := ih (Nat.succ.inj hlen) hrest (Nat.le_of_succ_le_succ hinner) (j + 1) (k + 1)
          rw [replaceKept_kept hkeeps, chooseAll_cons, ih, keptDimensions, chooseAll_cons,
            choose_toOption t j k, Option.map_bind]
          refine congrArg _ (funext fun choice => ?_)
          rw [Option.map_map, Function.comp_apply, Option.map_map]
          rfl
      · rw [openPlaces_some] at hinner
        have ih := ih (Nat.succ.inj hlen) hrest hinner (j + 1) k
        rw [replaceKept_chosen hkeeps, chooseAll_cons, hchoose, Option.bind_some, ih,
          keptDimensions, Option.map_map]
        rfl

/-- There are more selectors than dimensions if there are more than dimensions that are kept. -/
theorem length_replaceKept {dims : List (List κ)} {outer : List (Selector κ)} {i : ℕ}
    {choices : List (Option κ)} (hlen : outer.length = dims.length)
    (h : (t.chooseAll i dims outer).toOption = some choices) (inner : List (Selector κ)) :
    (t.replaceKept outer inner).length = dims.length + (inner.length - openPlaces choices) := by
  induction dims generalizing outer i choices inner with
  | nil =>
    cases List.length_eq_zero_iff.mp hlen
    cases h
    simp [replaceKept]
  | cons domain dims ih =>
    cases outer with
    | nil => cases hlen
    | cons c outer =>
      rw [chooseAll_cons] at h
      obtain ⟨choice, hchoice, h⟩ := Option.bind_eq_some_iff.mp h
      obtain ⟨rest, hrest, rfl⟩ := Option.map_eq_some_iff.mp h
      have ih := fun inner => ih (Nat.succ.inj hlen) hrest inner
      rcases choose_eq_ok (toOption_eq_some.mp hchoice) with
        ⟨hkeeps, rfl⟩ | ⟨hkeeps, key, -, -, rfl⟩
      · cases inner with
        | nil =>
          rw [replaceKept, List.length_cons, ih, List.length_cons, List.length_nil, Nat.zero_sub,
            Nat.zero_sub]
        | cons c' inner =>
          rw [replaceKept_kept hkeeps, List.length_cons, ih, List.length_cons, List.length_cons,
            openPlaces_none]
          omega
      · rw [replaceKept_chosen hkeeps, List.length_cons, ih, List.length_cons, openPlaces_some]
        omega

/-! ### Selecting twice -/

theorem Chooses.allowed {dims : List (List κ)} {selectors : List (Selector κ)}
    {choices : List (Option κ)} (h : t.Chooses dims selectors choices) : Allowed dims choices := by
  induction h with
  | nil => exact .nil
  | omitted _ ih | kept _ _ ih => exact .cons nofun ih
  | chosen _ _ hmem _ ih =>
    refine .cons ?_ ih
    rintro _ ⟨⟩
    exact hmem

/-- Selectors that are no more than the dimensions choose, and narrow by what they choose. -/
theorem subTensor_toOption {selectors : List (Selector κ)} (h : selectors.length ≤ t.rank) :
    (t.subTensor selectors).toOption
      = (t.chooseAll 0 t.dimensions selectors).toOption.bind t.narrow? := by
  rw [subTensor_eq, if_neg (Nat.not_lt.mpr h)]
  cases t.chooseAll 0 t.dimensions selectors with
  | error e => rfl
  | ok choices =>
    show _ = t.narrow? choices
    simp only [ok_bind]
    cases t.narrow? choices with
    | none => rfl
    | some narrowed => rfl

theorem subTensor_of_lt {selectors : List (Selector κ)} (h : t.rank < selectors.length) :
    (t.subTensor selectors).toOption = none := by
  rw [subTensor_eq, if_pos h]
  rfl

/-- What is selected comes from choices for all dimensions. -/
theorem exists_choices {selectors : List (Selector κ)} (h : t.subTensor selectors = .ok s) :
    selectors.length ≤ t.rank ∧ ∃ choices,
      (t.chooseAll 0 t.dimensions selectors).toOption = some choices ∧
        t.narrow? choices = some s := by
  have hsome := toOption_eq_some.mpr h
  have hlen : selectors.length ≤ t.rank := by
    by_contra hlt
    rw [subTensor_of_lt (Nat.not_le.mp hlt)] at hsome
    cases hsome
  rw [subTensor_toOption hlen] at hsome
  exact ⟨hlen, Option.bind_eq_some_iff.mp hsome⟩

/-- What is selected twice is what is selected once, if there is any. -/
theorem subTensor_composed_toOption [EquivBEq κ] (ht : t.Reachable) {outer : List (Selector κ)}
    (hs : t.subTensor outer = .ok s) (inner : List (Selector κ)) :
    (s.subTensor inner).toOption = (t.subTensor (t.composed outer inner)).toOption := by
  obtain ⟨houter, choices, hchoices, hnarrow⟩ := exists_choices hs
  have hlen : choices.length = t.rank :=
    (chooses_of_chooseAll houter (toOption_eq_some.mp hchoices)).length_choices
  obtain ⟨hdims, hwildcard⟩ := narrow?_eq_some hnarrow
  have hrank : s.rank = openPlaces choices := by
    rw [rank, hdims, length_keptDimensions hlen]
  have hcomplete := (t.chooseAll_complete 0 t.dimensions outer houter).trans hchoices
  have hcount : (outer ++ List.replicate (t.rank - outer.length) Selector.any).length = t.rank := by
    rw [List.length_append, List.length_replicate, Nat.add_sub_cancel' houter]
  have hlength : (t.composed outer inner).length
      = t.rank + (inner.length - openPlaces choices) := length_replaceKept hcount hcomplete inner
  by_cases hinner : inner.length ≤ openPlaces choices
  · have hsame := chooseAll_replaceKept hcount hcomplete hinner 0 0
    rw [subTensor_toOption (hinner.trans hrank.ge), subTensor_toOption (by omega), composed, hsame,
      hdims, chooseAll_congr hwildcard, Option.bind_map]
    refine Option.bind_congr fun selected hselected => ?_
    rw [← hdims] at hselected
    have hchooses := chooses_of_chooseAll (hinner.trans hrank.ge) (toOption_eq_some.mp hselected)
    exact narrow?_narrow? ht.openPlaces hlen hnarrow (hchooses.length_choices.trans hrank)
      hchooses.allowed
  · rw [subTensor_of_lt (by omega), subTensor_of_lt (by omega)]

end Tensor

/-- Whether an error is about the keys that a selection asked for, or that it keeps no dimension. -/
def TensorError.isInvalidSelection : TensorError κ → Bool
  | .allCollapsed _ => true
  | e => e.isInvalidKey

namespace Tensor

variable [Key κ] {t s : Tensor κ δ α}

theorem isInvalidSelection_of_choose {i : ℕ} {domain : List κ} {c : Selector κ}
    {e : TensorError κ} (h : t.choose i domain c = .error e) : e.isInvalidSelection = true := by
  have hcheck : ∀ {k}, (checkKey i domain k >>= fun _ => .ok (some k) : Except _ _) = .error e →
      e.isInvalidSelection = true := by
    intro k h
    unfold checkKey at h
    split at h
    · cases h
    · cases h
      rfl
  unfold choose choiceOf at h
  split at h
  · cases h
  · cases c with
    | key k | exact k => exact hcheck h
    | any => cases h
    | range full shown =>
      cases h
      rfl

theorem isInvalidSelection_of_chooseAll {selectors : List (Selector κ)} {e : TensorError κ} :
    ∀ {i : ℕ} {dims : List (List κ)}, t.chooseAll i dims selectors = .error e →
      e.isInvalidSelection = true := by
  induction selectors with
  | nil =>
    intro i dims h
    rw [chooseAll_nil] at h
    cases h
  | cons c selectors ih =>
    intro i dims h
    cases dims with
    | nil => cases h
    | cons domain dims =>
      rw [chooseAll_eq] at h
      rcases bind_eq_error.mp h with h | ⟨choice, -, h⟩
      · exact isInvalidSelection_of_choose h
      · rcases bind_eq_error.mp h with h | ⟨rest, -, h⟩
        · exact ih h
        · cases h

/-- A selection is refused for what it asks for only. -/
theorem isInvalidSelection_of_subTensor {selectors : List (Selector κ)} {e : TensorError κ}
    (h : t.subTensor selectors = .error e) : e.isInvalidSelection = true := by
  rw [subTensor_eq] at h
  split at h
  · cases h
    rfl
  · rcases bind_eq_error.mp h with h | ⟨choices, -, h⟩
    · exact isInvalidSelection_of_chooseAll h
    · split at h
      · cases h
      · cases h
        rfl

/-- **Selecting twice is selecting once.** For every tensor that can be got and every sub-tensor of
it, selectors for the sub-tensor and the composed selectors for the tensor give the same tensor, or
both are refused for what they ask for. -/
theorem subTensor_subTensor [EquivBEq κ] (ht : t.Reachable) {outer : List (Selector κ)}
    (hs : t.subTensor outer = .ok s) (inner : List (Selector κ)) :
    (∃ u, s.subTensor inner = .ok u ∧ t.subTensor (t.composed outer inner) = .ok u) ∨
      ∃ e e', s.subTensor inner = .error e ∧ t.subTensor (t.composed outer inner) = .error e' ∧
        e.isInvalidSelection = true ∧ e'.isInvalidSelection = true := by
  have hsame := subTensor_composed_toOption ht hs inner
  cases htwice : s.subTensor inner with
  | ok u =>
    rw [htwice] at hsame
    exact .inl ⟨u, rfl, toOption_eq_some.mp hsame.symm⟩
  | error e =>
    cases honce : t.subTensor (t.composed outer inner) with
    | ok u =>
      rw [htwice, honce] at hsame
      cases hsame
    | error e' =>
      exact .inr ⟨e, e', rfl, rfl, isInvalidSelection_of_subTensor htwice,
        isInvalidSelection_of_subTensor honce⟩

/-- Of the stock, the first key given as a truth value and then the last as a number select what the
two select at once. -/
theorem stock_selected_twice : ∃ t s u, stock = .ok t ∧ t.subTensor [.key (.truth true)] = .ok s ∧
    s.subTensor [.any, .exact (.number 5)] = .ok u ∧
    t.subTensor [.key (.truth true), .any, .exact (.number 5)] = .ok u := by
  have hrun : (stock.toOption.bind fun t =>
      (t.subTensor [.key (.truth true)]).toOption.bind fun s =>
        (s.subTensor [.any, .exact (.number 5)]).toOption.map fun u => (t.rank, u.rank))
          = some (3, 1) := by
    decide +kernel
  obtain ⟨t, ht, hrun⟩ := Option.bind_eq_some_iff.mp hrun
  obtain ⟨s, hs, hrun⟩ := Option.bind_eq_some_iff.mp hrun
  obtain ⟨u, hu, hranks⟩ := Option.map_eq_some_iff.mp hrun
  have ht := toOption_eq_some.mp ht
  have hs := toOption_eq_some.mp hs
  have hu := toOption_eq_some.mp hu
  have hcomposed : t.composed [.key (.truth true)] [.any, .exact (.number 5)]
      = [.key (.truth true), .any, .exact (.number 5)] := by
    cases ht
    rfl
  refine ⟨t, s, u, ht, hs, hu, ?_⟩
  rcases subTensor_subTensor (.ofNested ht) hs [.any, .exact (.number 5)] with
    ⟨u', hu', honce⟩ | ⟨e, -, he, -⟩
  · cases hu.symm.trans hu'
    rwa [hcomposed] at honce
  · rw [hu] at he
    cases he

end Tensor
end LinModel
