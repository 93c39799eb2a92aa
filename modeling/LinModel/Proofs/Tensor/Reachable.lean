import LinModel.Proofs.Programs
import LinModel.Proofs.Results
import LinModel.Tensor.Basic

/-!
# Tensors that a program can get

A tensor is made from a nested mapping, by a provider that is asked for every value, or as a
sub-tensor of another. Choosing keys fills open places of the fallback from the left to the right:
of a tensor's rank, the places of the chosen keys are filled and those of the kept dimensions stay
open. So a fallback has as many open places as the tensor has dimensions, however often keys were
chosen (`Tensor.Reachable.openPlaces`).

Key definitions: `openPlaces`, `Tensor.Reachable`.
Key theorems: `Tensor.subTensor_eq_ok`, `openPlaces_refineChoices`, `length_keptDimensions`,
`Tensor.Reachable.openPlaces`.
-/
namespace LinModel

variable {κ δ α : Type}

/-! ### Open places -/

/-- How many places have no key yet. -/
def openPlaces : List (Option κ) → ℕ
  | [] => 0
  | none :: choices => openPlaces choices + 1
  | some _ :: choices => openPlaces choices

@[simp] theorem openPlaces_nil : openPlaces ([] : List (Option κ)) = 0 := rfl

@[simp] theorem openPlaces_none (choices : List (Option κ)) :
    openPlaces (none :: choices) = openPlaces choices + 1 := rfl

@[simp] theorem openPlaces_some (k : κ) (choices : List (Option κ)) :
    openPlaces (some k :: choices) = openPlaces choices := rfl

theorem openPlaces_map_none {β : Type} (l : List β) :
    openPlaces (l.map fun _ => (none : Option κ)) = l.length := by
  induction l with
  | nil => rfl
  | cons a l ih => rw [List.map_cons, openPlaces_none, ih, List.length_cons]

/-- The places that are open after a choice for each open place. -/
theorem openPlaces_refineChoices : ∀ {outer inner : List (Option κ)},
    inner.length = openPlaces outer → openPlaces (refineChoices outer inner) = openPlaces inner
  | [], inner, _ => rfl
  | some k :: outer, inner, h => by
    rw [openPlaces_some] at h
    rw [refineChoices, openPlaces_some, openPlaces_refineChoices h]
  | none :: outer, [], h => by simp at h
  | none :: outer, c :: inner, h => by
    rw [openPlaces_none, List.length_cons] at h
    have ih : openPlaces (refineChoices outer inner) = openPlaces inner :=
      openPlaces_refineChoices (Nat.succ.inj h)
    cases c with
    | none => rw [refineChoices, openPlaces_none, openPlaces_none, ih]
    | some k => rw [refineChoices, openPlaces_some, openPlaces_some, ih]

theorem length_keptDimensions : ∀ {dims : List (List κ)} {choices : List (Option κ)},
    choices.length = dims.length → (keptDimensions dims choices).length = openPlaces choices
  | [], [], _ => rfl
  | domain :: dims, none :: choices, h => by
    rw [keptDimensions, openPlaces_none, List.length_cons,
      length_keptDimensions (Nat.succ.inj h)]
  | domain :: dims, some k :: choices, h => by
    rw [keptDimensions, openPlaces_some, length_keptDimensions (Nat.succ.inj h)]

namespace Tensor

variable [Key κ]

/-! ### Making and narrowing -/

theorem ofNested_eq_ok {view : NestedView κ α} {dims : List (List κ)} {values : α}
    {provider : Option δ} {wildcard : Option κ} {t : Tensor κ δ α}
    (h : ofNested view dims values provider wildcard = .ok t) :
    t.dimensions = dims ∧ t.fallback = provider.map (Fallback.ofProvider · dims) := by
  obtain ⟨-, -, h⟩ := bind_eq_ok.mp h
  obtain ⟨grid, -, h⟩ := bind_eq_ok.mp h
  cases h
  exact ⟨rfl, rfl⟩

theorem generate_eq_ok {σ ε : Type} {refuse : TensorError κ → ε} {dims : List (List κ)}
    {provide : List κ → ExceptT ε (StateM σ) α} {provider : Option δ} {wildcard : Option κ}
    {before : σ} {t : Tensor κ δ α}
    (h : (runFrom (generate refuse dims provide provider wildcard) before).1 = .ok t) :
    t.dimensions = dims ∧ t.fallback = provider.map (Fallback.ofProvider · dims) := by
  unfold generate at h
  cases hcheck : checkDimensions dims wildcard with
  | error e =>
    rw [hcheck] at h
    cases h
  | ok _ =>
    rw [hcheck] at h
    simp only [runFrom_bind] at h
    rcases hgrid : runFrom (Grid.generate provide dims) before with ⟨e | grid, after⟩
    · rw [hgrid] at h
      cases h
    · rw [hgrid] at h
      cases h
      exact ⟨rfl, rfl⟩

/-! ### Choosing -/

section Readers

variable {ι σ : Type} (r : IndexReader Id ι σ κ) (t : Tensor κ δ α)

/-- An item makes its choice before the next one is read. -/
theorem chooseItems_cons (index : ℕ) (domain : List κ) (dims : List (List κ)) (item : σ)
    (items : List σ) :
    t.chooseItems r index (domain :: dims) (item :: items)
      = (choiceOf index domain (t.keepsBy r.equal (r.selector item)) (r.selector item)).bind
          fun c => Except.map (c :: ·) (t.chooseItems r (index + 1) dims items) := by
  refine (exceptT_bind_id _ _).trans (congrArg _ (funext fun c => ?_))
  exact exceptT_map_id (t.chooseItems (m := Id) r (index + 1) dims items) (c :: ·)

theorem chooseItems_nil (index : ℕ) (dims : List (List κ)) :
    t.chooseItems r index dims [] = Except.ok (dims.map fun _ => none) := by
  cases dims with
  | nil => rfl
  | cons domain dims => rfl

theorem narrowItems_eq (items : List σ) :
    t.narrowItems r items = if t.rank < items.length
      then Except.error (TensorError.tooManySelectors t.rank (items.map r.given))
      else Except.bind (t.chooseItems (m := Id) r 0 t.dimensions items) fun choices =>
        match t.narrow? choices with
        | some narrowed => .ok (choices, narrowed)
        | none => .error (TensorError.allCollapsed (items.map r.given)) := by
  unfold narrowItems
  split_ifs with h
  · rfl
  · refine (exceptT_bind_id (t.chooseItems (m := Id) r 0 t.dimensions items) _).trans
      (congrArg _ (funext fun choices => ?_))
    cases t.narrow? choices with
    | none => rfl
    | some narrowed => rfl

end Readers

theorem chooseAll_eq (t : Tensor κ δ α) (index : ℕ) (domain : List κ) (dims : List (List κ))
    (s : Selector κ) (selectors : List (Selector κ)) :
    t.chooseAll index (domain :: dims) (s :: selectors) = (do
      let c ← t.choose index domain s
      let rest ← t.chooseAll (index + 1) dims selectors
      return c :: rest) := by
  refine (chooseItems_cons _ t index domain dims s selectors).trans
    (congrArg _ (funext fun c => ?_))
  unfold chooseAll
  cases t.chooseItems IndexReader.ofSelectors (index + 1) dims selectors with
  | error e => rfl
  | ok rest => rfl

theorem chooseAll_nil (t : Tensor κ δ α) (index : ℕ) (dims : List (List κ)) :
    t.chooseAll index dims [] = .ok (dims.map fun _ => none) :=
  chooseItems_nil _ t index dims

theorem subTensor_eq (t : Tensor κ δ α) (selectors : List (Selector κ)) :
    t.subTensor selectors = (do
      if t.rank < selectors.length then throw (.tooManySelectors t.rank selectors)
      let choices ← t.chooseAll 0 t.dimensions selectors
      match t.narrow? choices with
      | some narrowed => return narrowed
      | none => throw (.allCollapsed selectors)) := by
  have hread : selectors.map (IndexReader.ofSelectors (κ := κ)).given = selectors :=
    List.map_id _
  unfold subTensor
  rw [narrowItems_eq, hread]
  split_ifs with h
  · rfl
  · unfold chooseAll
    cases t.chooseItems IndexReader.ofSelectors 0 t.dimensions selectors with
    | error e => rfl
    | ok choices =>
      rw [ok_bind]
      show Except.map Prod.snd (match t.narrow? choices with
        | some narrowed => _
        | none => _) = _
      cases t.narrow? choices with
      | none => rfl
      | some narrowed => rfl

/-- The choices that selectors make in the dimensions, one by one. -/
inductive Chooses (t : Tensor κ δ α) : List (List κ) → List (Selector κ) → List (Option κ) → Prop
  | nil : t.Chooses [] [] []
  | omitted {domain dims choices} : t.Chooses dims [] choices →
      t.Chooses (domain :: dims) [] (none :: choices)
  | kept {domain dims selector selectors choices} : t.keeps selector = true →
      t.Chooses dims selectors choices →
      t.Chooses (domain :: dims) (selector :: selectors) (none :: choices)
  | chosen {domain dims selector selectors k choices} : t.keeps selector = false →
      selector.asKey? = some k → domain.any (· == k) = true → t.Chooses dims selectors choices →
      t.Chooses (domain :: dims) (selector :: selectors) (some k :: choices)

theorem checkKey_eq_ok {index : ℕ} {domain : List κ} {k : κ} :
    checkKey index domain k = .ok () ↔ domain.any (· == k) = true := by
  unfold checkKey
  by_cases h : domain.any (· == k) = true
  · simp [h]
  · simp [h]

theorem choose_eq_ok {t : Tensor κ δ α} {index : ℕ} {domain : List κ} {s : Selector κ}
    {c : Option κ} (h : t.choose index domain s = .ok c) :
    t.keeps s = true ∧ c = none ∨
      t.keeps s = false ∧ ∃ k, s.asKey? = some k ∧ domain.any (· == k) = true ∧ c = some k := by
  unfold choose choiceOf at h
  by_cases hkeeps : t.keeps s = true
  · rw [if_pos hkeeps] at h
    cases h
    exact .inl ⟨hkeeps, rfl⟩
  · rw [if_neg hkeeps] at h
    have hcollapses := Bool.eq_false_iff.mpr hkeeps
    cases s with
    | key k | exact k =>
      obtain ⟨_, hcheck, h⟩ := bind_eq_ok.mp h
      cases h
      exact .inr ⟨hcollapses, k, rfl, checkKey_eq_ok.mp hcheck, rfl⟩
    | any => exact absurd rfl hkeeps
    | range full shown => cases h

theorem chooses_of_chooseAll {t : Tensor κ δ α} : ∀ {dims : List (List κ)} {index : ℕ}
    {selectors : List (Selector κ)} {choices : List (Option κ)},
    selectors.length ≤ dims.length → t.chooseAll index dims selectors = .ok choices →
    t.Chooses dims selectors choices
  | [], _, [], choices, _, h => by
    cases h
    exact .nil
  | domain :: dims, index, [], choices, _, h => by
    cases h
    exact .omitted (chooses_of_chooseAll (Nat.zero_le _) (chooseAll_nil t index dims))
  | domain :: dims, index, s :: selectors, choices, hlen, h => by
    rw [chooseAll_eq] at h
    obtain ⟨c, hc, h⟩ := bind_eq_ok.mp h
    obtain ⟨rest, hrest, h⟩ := bind_eq_ok.mp h
    cases h
    have ih := chooses_of_chooseAll (Nat.le_of_succ_le_succ hlen) hrest
    rcases choose_eq_ok hc with ⟨hkeeps, rfl⟩ | ⟨hkeeps, k, hkey, hmem, rfl⟩
    · exact .kept hkeeps ih
    · exact .chosen hkeeps hkey hmem ih

theorem Chooses.length_choices {t : Tensor κ δ α} {dims : List (List κ)}
    {selectors : List (Selector κ)} {choices : List (Option κ)}
    (h : t.Chooses dims selectors choices) : choices.length = dims.length := by
  induction h with
  | nil => rfl
  | omitted _ ih | kept _ _ ih | chosen _ _ _ _ ih => rw [List.length_cons, List.length_cons, ih]

/-- **A sub-tensor is the tensor narrowed by the choices of its selectors.** -/
theorem subTensor_eq_ok {t s : Tensor κ δ α} {selectors : List (Selector κ)}
    (h : t.subTensor selectors = .ok s) :
    ∃ choices bare, t.Chooses t.dimensions selectors choices ∧
      bareGrid? (keptDimensions t.dimensions choices) = some bare ∧
      s = ⟨keptDimensions t.dimensions choices,
        (Grid.narrow t.dimensions choices t.grid).getD bare,
        t.fallback.map fun f => ⟨f.provider, refineChoices f.choices choices⟩, t.wildcard⟩ := by
  rw [subTensor_eq] at h
  by_cases hlen : t.rank < selectors.length
  · simp [hlen] at h
  · simp only [hlen, ↓reduceIte] at h
    obtain ⟨choices, hchoices, h⟩ := bind_eq_ok.mp h
    cases hbare : bareGrid? (κ := κ) (α := α) (keptDimensions t.dimensions choices) with
    | none => simp [narrow?, hbare] at h
    | some bare =>
      simp only [narrow?, hbare, Option.map_some] at h
      cases h
      exact ⟨choices, bare, chooses_of_chooseAll (Nat.not_lt.mp hlen) hchoices, hbare, rfl⟩

/-! ### Reachable tensors -/

/-- The tensors that a program can get. -/
inductive Reachable : Tensor κ δ α → Prop
  | ofNested {view : NestedView κ α} {dims : List (List κ)} {values : α} {provider : Option δ}
      {wildcard : Option κ} {t : Tensor κ δ α} :
      ofNested view dims values provider wildcard = .ok t → Reachable t
  | generate {σ ε : Type} {refuse : TensorError κ → ε} {dims : List (List κ)}
      {provide : List κ → ExceptT ε (StateM σ) α} {provider : Option δ} {wildcard : Option κ}
      {before : σ} {t : Tensor κ δ α} :
      (runFrom (generate refuse dims provide provider wildcard) before).1 = .ok t → Reachable t
  | subTensor {t s : Tensor κ δ α} {selectors : List (Selector κ)} :
      Reachable t → t.subTensor selectors = .ok s → Reachable s

/-- **A fallback has one open place per dimension.** -/
theorem Reachable.openPlaces {t : Tensor κ δ α} (h : t.Reachable) :
    ∀ f, t.fallback = some f → openPlaces f.choices = t.rank := by
  have hnew : ∀ {dims : List (List κ)} {provider : Option δ} {t : Tensor κ δ α},
      t.dimensions = dims ∧ t.fallback = provider.map (Fallback.ofProvider · dims) →
      ∀ f, t.fallback = some f → LinModel.openPlaces f.choices = t.rank := by
    rintro dims provider t ⟨rfl, hfallback⟩ f hf
    rw [hf] at hfallback
    obtain ⟨p, -, rfl⟩ := Option.map_eq_some_iff.mp hfallback.symm
    exact openPlaces_map_none _
  induction h with
  | ofNested h => exact hnew (ofNested_eq_ok h)
  | generate h => exact hnew (generate_eq_ok h)
  | subTensor _ h ih =>
    obtain ⟨choices, bare, hchoices, -, rfl⟩ := subTensor_eq_ok h
    intro f hf
    obtain ⟨g, hg, rfl⟩ := Option.map_eq_some_iff.mp hf
    have hlen := hchoices.length_choices
    rw [openPlaces_refineChoices (hlen.trans (ih g hg).symm), rank, length_keptDimensions hlen]

end Tensor
end LinModel
