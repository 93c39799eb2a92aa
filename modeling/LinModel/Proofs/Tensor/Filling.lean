import LinModel.Proofs.Tensor.FiniteMap

/-!
# What a provider is asked for

A tensor is filled in one loop over the key tuples, which asks a provider for the value of each and
stores it under the tuple before it asks for the next. The tuples with one key in front come one
after the other, so they fill the branch of this key, which goes behind the branches that are there
(`Grid.fill_under`). Then what is stored last is what the grid lists last, however deep the
dimensions are nested: the items of the grid are the key tuples in the order of `product`, each with
what the provider returned (`Grid.items_generate`). The equation is one of programs in any monad, so
with the provider's effects and failures a fact about a pass over a list is one about filling a
tensor.

Key definitions: `Grid.hang`, `Grid.under`.
Key theorems: `Grid.fill_under`, `Grid.items_generate`, `Grid.exists_values`, `Grid.exists_grid`,
`Tensor.checkDimensions_eq_ok`.
-/
namespace LinModel

variable {m : Type → Type} [Monad m] [LawfulMonad m] {α β γ κ : Type}

/-! ### Passes over a list -/

/-- What is done to the results of a pass may be done to each of them. -/
theorem map_mapM (g : β → γ) (f : α → m β) : ∀ l : List α,
    List.map g <$> l.mapM f = l.mapM fun a => g <$> f a
  | [] => by simp only [List.mapM_nil, map_pure, List.map_nil]
  | a :: l => by
    rw [List.mapM_cons, List.mapM_cons, ← map_mapM g f l]
    simp only [map_bind, map_pure, List.map_cons, bind_map_left]

theorem mapM_pair (f : α → m β) : ∀ l : List α,
    (l.mapM fun a => (a, ·) <$> f a) = l.zip <$> l.mapM f
  | [] => by simp only [List.mapM_nil, map_pure, List.zip_nil_left]
  | a :: l => by
    rw [List.mapM_cons, List.mapM_cons, mapM_pair f l]
    simp only [map_bind, map_pure, List.zip_cons_cons, bind_map_left]

/-! ### Key tuples -/

theorem length_of_mem_product : ∀ {dims : List (List κ)} {keys : List κ},
    keys ∈ product dims → keys.length = dims.length
  | [], keys, h => by
    rw [List.mem_singleton.mp h]
    rfl
  | domain :: dims, keys, h => by
    obtain ⟨k, -, htuple⟩ := List.mem_flatMap.mp h
    obtain ⟨rest, hrest, rfl⟩ := List.mem_map.mp htuple
    exact congrArg Nat.succ (length_of_mem_product hrest)

theorem exists_mem_product [Key κ] : ∀ {dims : List (List κ)} {keys : List κ}, Belong dims keys →
    ∃ tuple ∈ product dims, (tuple == keys) = true
  | [], [], .nil => ⟨[], List.mem_singleton.mpr rfl, rfl⟩
  | domain :: dims, key :: keys, .cons hkey hkeys => by
    obtain ⟨k, hk, hsame⟩ := List.any_eq_true.mp hkey
    obtain ⟨tuple, htuple, hrest⟩ := exists_mem_product hkeys
    refine ⟨k :: tuple, List.mem_flatMap.mpr ⟨k, hk, List.mem_map_of_mem htuple⟩, ?_⟩
    rw [List.cons_beq_cons, hsame, hrest, Bool.and_self]

/-! ### Entries that are put -/

namespace Entries

variable [BEq κ] {k : κ} {v : β} {entries : Entries κ β}

theorem find?_put_of_find?_none {k' : κ} (h : find? k entries = none) (hne : (k == k') = false) :
    find? k' (put k v entries) = find? k' entries := by
  rw [put_of_find?_none v h, find?_append, find?_cons, if_neg (Bool.eq_false_iff.mp hne),
    find?_nil, Option.or_none]

theorem put_put [ReflBEq κ] (k : κ) (u v : β) : ∀ entries : Entries κ β,
    put k v (put k u entries) = put k v entries
  | [] => if_pos BEq.rfl
  | (key, value) :: rest => by
    by_cases hkey : (key == k) = true
    · rw [put_cons, if_pos hkey, put_cons, if_pos hkey, put_cons, if_pos hkey]
    · rw [put_cons, if_neg hkey, put_cons, if_neg hkey, put_put k u v rest, put_cons, if_neg hkey]

end Entries

namespace Grid

/-- The items of a branch with their first key. -/
def under (k : κ) (items : List (List κ × α)) : List (List κ × α) :=
  items.map fun (keys, value) => (k :: keys, value)

theorem items_of_isBare : ∀ {dims : List (List κ)} {grid : Grid κ α dims},
    isBare dims grid = true → items dims grid = []
  | _ :: _, entries, h => by
    have hnil : entries = ([] : Entries κ _) := List.isEmpty_iff.mp h
    rw [hnil]
    rfl

variable [Key κ] {domain : List κ} {dims : List (List κ)} {grid : Grid κ α (domain :: dims)} {k : κ}

/-! ### Branches behind the others -/

/-- A branch under a key, unless it stores nothing. -/
def hang (grid : Grid κ α (domain :: dims)) (k : κ) (child : Grid κ α dims) :
    Grid κ α (domain :: dims) :=
  if isBare dims child then grid else Entries.put k child grid

theorem hang_of_isBare {child : Grid κ α dims} (h : isBare dims child = true) :
    hang grid k child = grid := if_pos h

theorem hang_of_not {child : Grid κ α dims} (h : isBare dims child = false) :
    hang grid k child = Entries.put k child grid := if_neg (Bool.eq_false_iff.mp h)

/-- The items of a branch under a new key come behind the others. -/
theorem items_hang (hk : Entries.find? k grid = none) (child : Grid κ α dims) :
    items (domain :: dims) (hang grid k child)
      = items (domain :: dims) grid ++ under k (items dims child) := by
  cases hbare : isBare dims child with
  | true =>
    rw [hang_of_isBare hbare, items_of_isBare hbare]
    exact (List.append_nil _).symm
  | false =>
    calc items (domain :: dims) (hang grid k child)
        = items (domain :: dims) (Entries.put k child grid) := by rw [hang_of_not hbare]
      _ = items (domain :: dims) (List.append grid [(k, child)]) :=
          congrArg _ (Entries.put_of_find?_none child hk)
      _ = items (domain :: dims) grid ++ under k (items dims child) :=
          List.flatMap_append.trans (congrArg _ (List.append_nil _))

/-- Other keys find what they did before a branch was put under a new key. -/
theorem find?_hang {k' : κ} (hk : Entries.find? k grid = none) (hne : (k == k') = false)
    (child : Grid κ α dims) : Entries.find? k' (hang grid k child) = Entries.find? k' grid := by
  cases hbare : isBare dims child with
  | true => rw [hang_of_isBare hbare]
  | false =>
    rw [hang_of_not hbare]
    exact Entries.find?_put_of_find?_none hk hne

theorem store_cons (keys : List κ) (value : α) :
    store (domain :: dims) (k :: keys) value (some grid)
      = Entries.put k (store dims keys value (Entries.find? k grid)) grid := rfl

omit grid domain in
/-- It makes no difference whether a branch stores nothing or is not there. -/
theorem store_none : ∀ {dims : List (List κ)} {keys : List κ} {value : α} {child : Grid κ α dims},
    isBare dims child = true → store dims keys value none = store dims keys value (some child)
  | _ :: _, keys, value, entries, h => by
    have hnil : entries = ([] : Entries κ _) := List.isEmpty_iff.mp h
    rw [hnil]
    cases keys with
    | nil => rfl
    | cons k keys => rfl

/-- What is stored under a key goes to the branch of this key. -/
theorem store_hang [ReflBEq κ] (hk : Entries.find? k grid = none) {keys : List κ}
    (hkeys : keys.length = dims.length) (value : α) (child : Grid κ α dims) :
    store (domain :: dims) (k :: keys) value (some (hang grid k child))
      = hang grid k (store dims keys value (some child)) := by
  rw [hang_of_not (isBare_store hkeys)]
  cases hbare : isBare dims child with
  | true => rw [hang_of_isBare hbare, store_cons, hk, store_none hbare]
  | false =>
    have hfind : Entries.find? k (hang grid k child) = some child := by
      rw [hang_of_not hbare]
      exact Entries.find?_put_self k child grid
    rw [store_cons, hfind, hang_of_not hbare]
    exact Entries.put_put k child _ grid

/-! ### Filling branch by branch -/

section Fill

variable (provide : List κ → m α)

omit [LawfulMonad m] in
theorem fill_nil (dims : List (List κ)) (grid : Grid κ α dims) :
    fill provide dims grid [] = pure grid := rfl

theorem fill_cons (dims : List (List κ)) (grid : Grid κ α dims) (keys : List κ)
    (tuples : List (List κ)) : fill provide dims grid (keys :: tuples)
      = provide keys >>= fun value =>
        fill provide dims (store dims keys value (some grid)) tuples := by
  unfold fill
  rw [List.foldlM_cons, bind_assoc]
  simp only [pure_bind]

theorem fill_append (dims : List (List κ)) (grid : Grid κ α dims) (tuples tuples' : List (List κ)) :
    fill provide dims grid (tuples ++ tuples')
      = fill provide dims grid tuples >>= fun filled => fill provide dims filled tuples' :=
  List.foldlM_append

variable [ReflBEq κ]

/-- Going on with the key tuples under a key goes on with the branch of the key. -/
theorem fill_under (hk : Entries.find? k grid = none) : ∀ {tuples : List (List κ)},
    (∀ keys ∈ tuples, keys.length = dims.length) → ∀ child : Grid κ α dims,
      fill provide (domain :: dims) (hang grid k child) (tuples.map (k :: ·))
        = hang grid k <$> fill (fun keys => provide (k :: keys)) dims child tuples
  | [], _, child => by rw [List.map_nil, fill_nil, fill_nil, map_pure]
  | keys :: tuples, h, child => by
    obtain ⟨hfirst, hrest⟩ := List.forall_mem_cons.mp h
    rw [List.map_cons, fill_cons, fill_cons]
    simp only [store_hang hk hfirst, fill_under hk hrest, map_bind]

/-- Going through the key tuples under a new key makes the branch of this key. -/
theorem fill_new (hk : Entries.find? k grid = none) :
    fill provide (domain :: dims) grid ((product dims).map (k :: ·))
      = hang grid k <$> generate (fun keys => provide (k :: keys)) dims := by
  cases dims with
  | nil =>
    rw [product, List.map_singleton, fill_cons, map_eq_pure_bind]
    rfl
  | cons d dims =>
    exact fill_under provide hk (fun _ => length_of_mem_product) (empty d dims)

end Fill

omit [Key κ] in
/-- Putting a key in front of the tuples of a pass is a pass over the longer tuples. -/
theorem under_mapM (k : κ) (provide : List κ → m α) (l : List (List κ)) :
    under k <$> (l.mapM fun keys => (keys, ·) <$> provide (k :: keys))
      = (l.map (k :: ·)).mapM fun keys => (keys, ·) <$> provide keys := by
  unfold under
  rw [map_mapM, List.mapM_map]
  simp only [Functor.map_map]
  rfl

variable [ReflBEq κ]

/-- Going through the key tuples under new keys, one after the other, lists them behind what is
there. -/
theorem items_fill (ih : ∀ provide : List κ → m α, items dims <$> generate provide dims
      = (product dims).mapM fun keys => (keys, ·) <$> provide keys) (provide : List κ → m α) :
    ∀ {ks : List κ} (grid : Grid κ α (domain :: dims)), AllDifferent ks →
      (∀ k ∈ ks, Entries.find? k grid = none) →
        items (domain :: dims) <$> fill provide (domain :: dims) grid (product (ks :: dims))
          = (items (domain :: dims) grid ++ ·) <$>
            (product (ks :: dims)).mapM fun keys => (keys, ·) <$> provide keys
  | [], grid, _, _ => by
    rw [product, List.flatMap_nil, fill_nil, List.mapM_nil, map_pure, map_pure, List.append_nil]
  | k :: ks, grid, hks, hnew => by
    obtain ⟨hk, hks⟩ := List.pairwise_cons.mp hks
    obtain ⟨hnewk, hnew⟩ := List.forall_mem_cons.mp hnew
    -- whatever the branch of `k` is, the other keys are still new
    have hrest := fun child : Grid κ α dims => items_fill ih provide (hang grid k child) hks
      fun k' hk' => (find?_hang hnewk (hk k' hk') child).trans (hnew k' hk')
    have hproduct : product ((k :: ks) :: dims)
        = (product dims).map (k :: ·) ++ product (ks :: dims) := List.flatMap_cons
    rw [hproduct, fill_append, fill_new provide hnewk, List.mapM_append, ← under_mapM, ← ih]
    simp only [map_bind, bind_map_left, hrest, items_hang hnewk, List.append_assoc]
    simp only [map_eq_pure_bind, pure_bind]

/-- **Filling a grid is one pass over the key tuples**: the provider is asked for each, in the order
of `product`, and the items of the grid are the key tuples with what it returns. -/
theorem items_generate : ∀ {dims : List (List κ)}, (∀ domain ∈ dims, AllDifferent domain) →
    ∀ provide : List κ → m α, items dims <$> generate provide dims
      = (product dims).mapM fun keys => (keys, ·) <$> provide keys
  | [], _, provide => by
    rw [product, List.mapM_cons, List.mapM_nil, generate]
    simp only [bind_pure_comp, map_pure, Functor.map_map]
    rfl
  | domain :: dims, h, provide => by
    obtain ⟨hdomain, hdims⟩ := List.forall_mem_cons.mp h
    have hfill := items_fill (items_generate hdims) provide (empty domain dims) hdomain
      fun _ _ => rfl
    exact hfill.trans (id_map _)

section Runs

variable {σ ε : Type} {dims : List (List κ)} {provide : List κ → ExceptT ε (StateM σ) α}
  {before after : σ} (hdims : ∀ domain ∈ dims, AllDifferent domain)

include hdims

/-- Filling a grid and going through the key tuples are the same run, but for their results. -/
theorem runFrom_generate (provide : List κ → ExceptT ε (StateM σ) α) (before : σ) :
    ((runFrom (generate provide dims) before).1.map (items dims),
        (runFrom (generate provide dims) before).2)
      = ((runFrom ((product dims).mapM provide) before).1.map (product dims).zip,
        (runFrom ((product dims).mapM provide) before).2) := by
  rw [← runFrom_map, ← runFrom_map, items_generate hdims, mapM_pair]

theorem exists_values {grid : Grid κ α dims}
    (h : runFrom (generate provide dims) before = (.ok grid, after)) :
    ∃ values, runFrom ((product dims).mapM provide) before = (.ok values, after) ∧
      items dims grid = (product dims).zip values := by
  have hrun := runFrom_generate hdims provide before
  rw [h] at hrun
  rcases hpass : runFrom ((product dims).mapM provide) before with ⟨e | values, s⟩
  · rw [hpass] at hrun
    cases hrun
  · rw [hpass] at hrun
    obtain ⟨hitems, rfl⟩ := Prod.mk.inj hrun
    exact ⟨values, rfl, Except.ok.inj hitems⟩

theorem exists_grid {values : List α}
    (h : runFrom ((product dims).mapM provide) before = (.ok values, after)) :
    ∃ grid, runFrom (generate provide dims) before = (.ok grid, after) := by
  have hrun := runFrom_generate hdims provide before
  rw [h] at hrun
  rcases hgrid : runFrom (generate provide dims) before with ⟨e | grid, s⟩
  · rw [hgrid] at hrun
    cases hrun
  · rw [hgrid] at hrun
    obtain ⟨-, rfl⟩ := Prod.mk.inj hrun
    exact ⟨grid, rfl⟩

end Runs

end Grid

namespace Tensor

variable [Key κ]

theorem hasRepeats_of_allDifferent : ∀ {keys : List κ},
    AllDifferent keys → hasRepeats keys = false
  | [], _ => rfl
  | k :: keys, h => by
    obtain ⟨hk, hkeys⟩ := List.pairwise_cons.mp h
    have hnew : keys.contains k = false := by
      refine Bool.eq_false_iff.mpr fun hcontains => ?_
      obtain ⟨other, hother, hsame⟩ := List.contains_iff_exists_mem_beq.mp hcontains
      rw [hk other hother] at hsame
      cases hsame
    exact Bool.or_eq_false_iff.mpr ⟨hnew, hasRepeats_of_allDifferent hkeys⟩

/-- A wildcard that is usable and none of the keys of a domain. -/
def IsApart (wildcard : Option κ) (domain : List κ) : Prop :=
  ∀ w ∈ wildcard, Key.usable w = true ∧ domain.contains w = false

@[simp] theorem isApart_none (domain : List κ) : IsApart none domain := nofun

theorem checkDomain_eq_ok {domain : List κ} {wildcard : Option κ} {index : ℕ}
    (hdifferent : AllDifferent domain) (husable : ∀ k ∈ domain, Key.usable k = true)
    (hwild : IsApart wildcard domain) : checkDomain wildcard index domain = .ok () := by
  have hfind : domain.find? (!Key.usable ·) = none := by
    simpa using husable
  unfold checkDomain
  rw [hfind, hasRepeats_of_allDifferent hdifferent]
  cases wildcard with
  | none => rfl
  | some w =>
    obtain ⟨hw, hother⟩ := hwild w rfl
    simp only [hw, hother]
    rfl

theorem checkDomains_eq_ok {wildcard : Option κ} : ∀ {dims : List (List κ)} {index : ℕ},
    (∀ domain ∈ dims, AllDifferent domain ∧ ∀ k ∈ domain, Key.usable k = true) →
      (∀ domain ∈ dims, IsApart wildcard domain) → checkDomains wildcard index dims = .ok ()
  | [], _, _, _ => rfl
  | domain :: dims, index, h, hwild => by
    obtain ⟨⟨hdifferent, husable⟩, hdims⟩ := List.forall_mem_cons.mp h
    obtain ⟨hfirst, hwild⟩ := List.forall_mem_cons.mp hwild
    rw [checkDomains, checkDomain_eq_ok hdifferent husable hfirst, ok_bind]
    exact checkDomains_eq_ok hdims hwild

/-- Different usable keys in every dimension are accepted, with a wildcard that is none of them. -/
theorem checkDimensions_eq_ok {dims : List (List κ)} {wildcard : Option κ} (hne : dims ≠ [])
    (h : ∀ domain ∈ dims, AllDifferent domain ∧ ∀ k ∈ domain, Key.usable k = true)
    (hwild : ∀ domain ∈ dims, IsApart wildcard domain) :
    checkDimensions dims wildcard = .ok () := by
  unfold checkDimensions
  rw [if_neg (by simpa using hne)]
  exact checkDomains_eq_ok h hwild

end Tensor
end LinModel
