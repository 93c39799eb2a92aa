import Mathlib.Algebra.Order.BigOperators.Group.List
import Mathlib.Algebra.Order.Group.Nat
import LinModel.Proofs.Tensor.Keys
import LinModel.Proofs.Tensor.Storage

/-!
# A tensor is a finite map

Its values are listed, counted, looked up and tested for. All these read one finite map from key
tuples to values: for every tensor that can be got, a key tuple is in the tensor if and only if it
is listed, and then it is found with the value that is listed, whatever the provider
(`Tensor.Reachable.isFiniteMap`). Key tuples are compared key by key, so one may be given in another
form than it is listed in.

The readers walk the grid in their own ways, and agree on tidy ones. A listed key tuple passes
through the branches that a look-up takes, since no branch has another key that is the same
(`Grid.lookup_eq_some_iff`); for that reason none is listed twice, too (`Grid.allDifferent_items`).
Keys that are not all of their dimensions are refused for the first one that is not
(`Tensor.exactKeys_of_not_belong`). So reading through a sub-tensor is reading the tensor with the
chosen keys put back: what one of the two lists, or asks the provider for, the other does
(`Tensor.find_subTensor`).

Key definitions: `IsFilled`, `FirstStray`, `Tensor.Lists`, `Tensor.IsFiniteMap`.
Key theorems: `isFilled_fillChoices`, `Grid.allDifferent_items`, `Grid.length_items_le`,
`Grid.lookup_eq_some_iff`, `Tensor.exactKeys_of_not_belong`, `Tensor.Reachable.isFiniteMap`,
`Tensor.find_subTensor`.
-/
namespace LinModel

variable {κ δ α β : Type}

/-! ### Fallbacks -/

/-- The keys of a tuple in the places that were open. -/
def openKeys : List (Option κ) → List κ → List κ
  | none :: choices, k :: keys => k :: openKeys choices keys
  | some _ :: choices, _ :: keys => openKeys choices keys
  | _, _ => []

/-- A key tuple with the chosen keys in their places, and the given ones in the open places. -/
structure IsFilled (choices : List (Option κ)) (keys asked : List κ) : Prop where
  length_eq : asked.length = choices.length
  chosen : ∀ (i : ℕ) (k : κ), choices[i]? = some (some k) → asked[i]? = some k
  opened : openKeys choices asked = keys

theorem isFilled_fillChoices : ∀ {choices : List (Option κ)} {keys : List κ},
    keys.length = openPlaces choices → IsFilled choices keys (fillChoices choices keys)
  | [], [], _ => ⟨rfl, nofun, rfl⟩
  | some k :: choices, keys, h => by
    rw [openPlaces_some] at h
    obtain ⟨hlength, hchosen, hopened⟩ := isFilled_fillChoices h
    refine ⟨congrArg Nat.succ hlength, fun i k' hk' => ?_, hopened⟩
    cases i with
    | zero => exact Option.some.inj hk'
    | succ i => exact hchosen i k' hk'
  | none :: choices, k :: keys, h => by
    obtain ⟨hlength, hchosen, hopened⟩ := isFilled_fillChoices (Nat.succ.inj h)
    refine ⟨congrArg Nat.succ hlength, fun i k' hk' => ?_, congrArg (k :: ·) hopened⟩
    cases i with
    | zero => cases hk'
    | succ i => exact hchosen i k' hk'

/-- Where nothing was chosen, the given keys are asked for as they are. -/
theorem IsFilled.eq_of_open : ∀ {choices : List (Option κ)} {keys asked : List κ},
    (∀ c ∈ choices, c = none) → IsFilled choices keys asked → asked = keys
  | [], keys, asked, _, h => by
    have hempty : asked = [] := List.length_eq_zero_iff.mp h.length_eq
    rw [← h.opened, hempty]
    rfl
  | c :: choices, keys, asked, hopen, h => by
    obtain ⟨rfl, hrest⟩ := List.forall_mem_cons.mp hopen
    cases asked with
    | nil => cases h.length_eq
    | cons k asked =>
      have hfilled : IsFilled choices (openKeys choices asked) asked :=
        ⟨Nat.succ.inj h.length_eq, fun i k' hk' => h.chosen (i + 1) k' hk', rfl⟩
      rw [← h.opened, openKeys, ← hfilled.eq_of_open hrest]

/-! ### Tidy grids -/

/-- Among different keys, a key finds the value of the one it is the same as. -/
theorem Entries.find?_eq_some_iff [BEq κ] [PartialEquivBEq κ] {k : κ} {v : β} :
    ∀ {entries : Entries κ β}, AllDifferent entries.keys →
      (entries.find? k = some v ↔ ∃ entry ∈ entries, (entry.1 == k) = true ∧ entry.2 = v)
  | [], _ => iff_of_false nofun nofun
  | (key, value) :: rest, h => by
    obtain ⟨hkey, hrest⟩ := List.pairwise_cons.mp h
    have ih : find? k rest = some v ↔ ∃ entry ∈ rest, (entry.1 == k) = true ∧ entry.2 = v :=
      find?_eq_some_iff hrest
    rw [find?_cons]
    by_cases hk : (key == k) = true
    · rw [if_pos hk]
      constructor
      · intro hv
        exact ⟨_, List.mem_cons_self, hk, Option.some.inj hv⟩
      · rintro ⟨entry, hentry, hsame, rfl⟩
        rcases List.mem_cons.mp hentry with rfl | hentry
        · rfl
        · have hother : (key == entry.1) = true := BEq.trans hk (BEq.symm hsame)
          rw [hkey _ (List.mem_map_of_mem hentry)] at hother
          cases hother
    · rw [if_neg hk, ih]
      constructor
      · rintro ⟨entry, hentry, h⟩
        exact ⟨entry, List.mem_cons_of_mem _ hentry, h⟩
      · rintro ⟨entry, hentry, hsame, hv⟩
        rcases List.mem_cons.mp hentry with rfl | hentry
        · exact absurd hsame hk
        · exact ⟨entry, hentry, hsame, hv⟩

variable [Key κ]

namespace Grid

theorem belong_of_mem_items : ∀ {dims : List (List κ)} {grid : Grid κ α dims} {item : List κ × α},
    IsTidy dims grid → item ∈ items dims grid → Belong dims item.1
  | [], _, _, _, h => by
    cases List.mem_singleton.mp h
    exact .nil
  | domain :: dims, _, item, htidy, h => by
    obtain ⟨⟨k, child⟩, hentry, h⟩ := List.mem_flatMap.mp h
    obtain ⟨⟨ks, v⟩, hmem, rfl⟩ := List.mem_map.mp h
    exact .cons (htidy.known _ hentry) (belong_of_mem_items (htidy.values _ hentry).2 hmem)

theorem allDifferent_items : ∀ {dims : List (List κ)} {grid : Grid κ α dims},
    IsTidy dims grid → AllDifferent ((items dims grid).map Prod.fst)
  | [], _, _ => List.pairwise_singleton _ _
  | domain :: dims, entries, htidy => by
    refine List.pairwise_map.mpr (List.pairwise_flatMap.mpr ⟨fun entry hentry => ?_, ?_⟩)
    · -- under one key the rests of the key tuples differ
      have ih := List.pairwise_map.mp (allDifferent_items (htidy.values entry hentry).2)
      refine List.pairwise_map.mpr (ih.imp fun {a b} hab => ?_)
      rw [List.cons_beq_cons, hab, Bool.and_false]
    · -- under two keys these differ
      refine (List.pairwise_map.mp htidy.different).imp fun {a b} hab => ?_
      rintro _ hx _ hy
      obtain ⟨x, -, rfl⟩ := List.mem_map.mp hx
      obtain ⟨y, -, rfl⟩ := List.mem_map.mp hy
      rw [List.cons_beq_cons, hab, Bool.false_and]

variable [PartialEquivBEq κ]

theorem length_items_le : ∀ {dims : List (List κ)} {grid : Grid κ α dims}, IsTidy dims grid →
    (items dims grid).length ≤ (dims.map List.length).prod
  | [], _, _ => Nat.le_refl _
  | domain :: dims, entries, htidy => by
    have hkeys : (Entries.keys entries).length ≤ domain.length := by
      refine htidy.different.length_le fun k hk => ?_
      obtain ⟨entry, hentry, rfl⟩ := List.mem_map.mp hk
      exact htidy.known entry hentry
    have hchildren : (items (domain :: dims) entries).length
        ≤ List.length entries * (dims.map List.length).prod := by
      refine List.length_flatMap.trans_le ((List.sum_le_card_nsmul _ (dims.map List.length).prod
        (List.forall_mem_map.mpr fun entry hentry => ?_)).trans_eq ?_)
      · rw [List.length_map]
        exact length_items_le (htidy.values entry hentry).2
      · exact congrArg (· * (dims.map List.length).prod) (List.length_map _)
    have hlength : (Entries.keys entries).length = List.length entries := List.length_map _
    exact hchildren.trans (Nat.mul_le_mul_right _ (hlength ▸ hkeys))

theorem lookup_eq_some_iff :
    ∀ {dims : List (List κ)} {grid : Grid κ α dims} {keys : List κ} {v : α}, IsTidy dims grid →
      (lookup dims keys grid = some v ↔
        ∃ item ∈ items dims grid, (item.1 == keys) = true ∧ item.2 = v)
  | [], value, [], v, _ => by
    constructor
    · rintro ⟨⟩
      exact ⟨_, List.mem_singleton.mpr rfl, rfl, rfl⟩
    · rintro ⟨item, hitem, -, rfl⟩
      cases List.mem_singleton.mp hitem
      rfl
  | [], value, k :: keys, v, _ => by
    refine iff_of_false nofun ?_
    rintro ⟨item, hitem, hsame, -⟩
    cases List.mem_singleton.mp hitem
    cases hsame
  | domain :: dims, entries, [], v, _ => by
    refine iff_of_false nofun ?_
    rintro ⟨item, hitem, hsame, -⟩
    obtain ⟨entry, -, hitem⟩ := List.mem_flatMap.mp hitem
    obtain ⟨rest, -, rfl⟩ := List.mem_map.mp hitem
    cases hsame
  | domain :: dims, entries, k :: keys, v, htidy => by
    have hlookup : lookup (domain :: dims) (k :: keys) entries = some v ↔
        ∃ child, Entries.find? k entries = some child ∧ lookup dims keys child = some v :=
      Option.bind_eq_some_iff
    rw [hlookup]
    constructor
    · rintro ⟨child, hchild, hv⟩
      obtain ⟨entry, hentry, hk, rfl⟩ := (Entries.find?_eq_some_iff htidy.different).mp hchild
      obtain ⟨item, hitem, hkeys, hv⟩ :=
        (lookup_eq_some_iff (htidy.values entry hentry).2).mp hv
      refine ⟨_, List.mem_flatMap.mpr ⟨entry, hentry, List.mem_map_of_mem hitem⟩, ?_, hv⟩
      rw [List.cons_beq_cons, hk, hkeys, Bool.and_self]
    · rintro ⟨item, hitem, hsame, hv⟩
      obtain ⟨entry, hentry, hitem⟩ := List.mem_flatMap.mp hitem
      obtain ⟨rest, hrest, rfl⟩ := List.mem_map.mp hitem
      obtain ⟨hk, hkeys⟩ := Bool.and_eq_true_iff.mp hsame
      exact ⟨entry.2, (Entries.find?_eq_some_iff htidy.different).mpr ⟨entry, hentry, hk, rfl⟩,
        (lookup_eq_some_iff (htidy.values entry hentry).2).mpr ⟨rest, hrest, hkeys, hv⟩⟩

end Grid

/-! ### Keys as they are checked -/

/-- The first key of a tuple that its dimension does not have. -/
structure FirstStray (dims : List (List κ)) (keys : List κ) (dimension : ℕ) (domain : List κ)
    (key : κ) : Prop where
  belong : Belong (dims.take dimension) (keys.take dimension)
  domain_eq : dims[dimension]? = some domain
  key_eq : keys[dimension]? = some key
  stray : domain.any (· == key) = false

namespace Tensor

theorem exactKeys_of_belong {dims : List (List κ)} {keys : List κ} (h : Belong dims keys) :
    ∀ (index : ℕ) {selectors : List (Selector κ)}, selectors.map Selector.asKey? = keys.map some →
      exactKeys index dims selectors = .ok keys := by
  induction h with
  | nil =>
    intro index selectors hselectors
    rw [List.map_eq_nil_iff.mp hselectors]
    rfl
  | cons hk _ ih =>
    intro index selectors hselectors
    obtain ⟨s, rest, rfl, hs, hrest⟩ := List.map_eq_cons_iff.mp hselectors
    rw [exactKeys]
    simp only [hs, checkKey_eq_ok.mpr hk, ok_bind, ih _ hrest]
    rfl

/-- Keys that do not all belong to their dimensions are refused for the first one. -/
theorem exactKeys_of_not_belong : ∀ {dims : List (List κ)} {keys : List κ},
    keys.length = dims.length → ¬ Belong dims keys → ∀ index, ∃ dimension domain key,
      FirstStray dims keys dimension domain key ∧ exactKeys index dims (keys.map .key)
        = .error (.keyNotAllowed key (index + dimension) domain)
  | [], [], _, h, _ => absurd .nil h
  | domain :: dims, k :: keys, hlen, h, index => by
    by_cases hk : domain.any (· == k) = true
    · have hrest : ¬ Belong dims keys := fun hrest => h (.cons hk hrest)
      obtain ⟨dimension, domain', key, hstray, herror⟩ :=
        exactKeys_of_not_belong (Nat.succ.inj hlen) hrest (index + 1)
      refine ⟨dimension + 1, domain', key,
        ⟨.cons hk hstray.belong, hstray.domain_eq, hstray.key_eq, hstray.stray⟩, ?_⟩
      rw [List.map_cons, exactKeys]
      simp only [Selector.asKey?, checkKey_eq_ok.mpr hk, ok_bind, herror, error_bind]
      rw [Nat.add_assoc, Nat.add_comm 1]
    · refine ⟨0, domain, k, ⟨.nil, rfl, rfl, Bool.eq_false_iff.mpr hk⟩, ?_⟩
      have hcheck : checkKey index domain k = .error (.keyNotAllowed k index domain) := if_neg hk
      rw [List.map_cons, exactKeys]
      simp only [Selector.asKey?, hcheck, error_bind]
      rfl

end Tensor

/-! ### Tensors -/

theorem Belong.congr [PartialEquivBEq κ] {dims : List (List κ)} {keys : List κ}
    (h : Belong dims keys) : ∀ {keys' : List κ}, (keys == keys') = true → Belong dims keys' := by
  induction h with
  | nil =>
    intro keys' hsame
    cases keys' with
    | nil => exact .nil
    | cons k' keys' => cases hsame
  | cons hk _ ih =>
    intro keys' hsame
    cases keys' with
    | nil => cases hsame
    | cons k' keys' =>
      obtain ⟨hkey, hkeys⟩ := Bool.and_eq_true_iff.mp hsame
      obtain ⟨d, hd, hdk⟩ := List.any_eq_true.mp hk
      exact .cons (List.any_eq_true.mpr ⟨d, hd, BEq.trans hdk hkey⟩) (ih hkeys)

namespace Tensor

/-- A value is listed under a key tuple that is the same as the given one. -/
def Lists (t : Tensor κ δ α) (keys : List κ) (value : α) : Prop :=
  ∃ item ∈ t.items, (item.1 == keys) = true ∧ item.2 = value

/-- **All views of a tensor are those of one finite map.** What is listed has a key of every
dimension and no key tuple twice; what is listed is in the tensor and is found, without asking the
provider. What is not is asked of the provider, with the keys that were chosen put back, and where
there is none the keys are refused. Keys outside the domains are refused for the first one. -/
structure IsFiniteMap (t : Tensor κ δ α) : Prop where
  tidy : t.IsTidy
  belong : ∀ item ∈ t.items, Belong t.dimensions item.1
  different : AllDifferent (t.items.map Prod.fst)
  contains_iff : ∀ keys, keys.length = t.rank →
    (t.contains keys = true ↔ ∃ value, t.Lists keys value)
  find_listed : ∀ keys value, t.Lists keys value → t.find (keys.map .key) = .ok (.stored value)
  find_provided : ∀ keys f, Belong t.dimensions keys → t.contains keys = false →
    t.fallback = some f → ∃ asked, t.find (keys.map .key) = .ok (.missing f.provider asked) ∧
      IsFilled f.choices keys asked ∧ ((∀ c ∈ f.choices, c = none) → asked = keys)
  find_refused : ∀ keys, Belong t.dimensions keys → t.contains keys = false →
    t.fallback = none → t.find (keys.map .key) = .error (.notStored keys)
  find_stray : ∀ keys, keys.length = t.rank → ¬ Belong t.dimensions keys →
    ∃ dimension domain key, FirstStray t.dimensions keys dimension domain key ∧
      t.find (keys.map .key) = .error (.keyNotAllowed key dimension domain)
  size_eq : t.size = t.items.length
  size_le : t.size ≤ t.shape.prod

variable {t : Tensor κ δ α} {keys : List κ}

/-- Keys of the dimensions, marked or not, find what is under them. -/
theorem find_of_asKeys (h : Belong t.dimensions keys) {selectors : List (Selector κ)}
    (hselectors : selectors.map Selector.asKey? = keys.map some) :
    t.find selectors = match t.foundAt keys with
      | some found => .ok found
      | none => .error (.notStored keys) := by
  have hlen : selectors.length = t.rank := by
    have hlength := congrArg List.length hselectors
    rw [List.length_map, List.length_map] at hlength
    exact hlength.trans h.length_eq.symm
  rw [find_eq hlen, exactKeys_of_belong h 0 hselectors]
  exact ok_bind _ _

theorem find_of_belong (h : Belong t.dimensions keys) :
    t.find (keys.map .key) = match t.foundAt keys with
      | some found => .ok found
      | none => .error (.notStored keys) :=
  find_of_asKeys h (List.map_map ..)

/-- Under keys is the stored value; or what the provider gives, if there is one; or nothing. -/
theorem foundAt_cases (t : Tensor κ δ α) (keys : List κ) :
    (∃ value, t.grid.lookup t.dimensions keys = some value ∧
      t.foundAt keys = some (.stored value)) ∨
    (∃ f, t.grid.lookup t.dimensions keys = none ∧ t.fallback = some f ∧
      t.foundAt keys = some (.missing f.provider (fillChoices f.choices keys))) ∨
    t.grid.lookup t.dimensions keys = none ∧ t.fallback = none ∧ t.foundAt keys = none := by
  unfold foundAt
  cases t.grid.lookup t.dimensions keys with
  | some value => exact .inl ⟨value, rfl, rfl⟩
  | none =>
    cases t.fallback with
    | some f => exact .inr (.inl ⟨f, rfl, rfl, rfl⟩)
    | none => exact .inr (.inr ⟨rfl, rfl, rfl⟩)

/-- Nothing is under keys only if nothing is stored there and there is no provider. -/
theorem not_contains_of_foundAt (h : t.foundAt keys = none) :
    t.contains keys = false ∧ t.fallback = none := by
  obtain ⟨value, -, hfound⟩ | ⟨f, -, -, hfound⟩ | ⟨hlookup, hf, -⟩ := t.foundAt_cases keys
  · rw [hfound] at h
    cases h
  · rw [hfound] at h
    cases h
  · exact ⟨Option.isSome_eq_false_iff.mpr (Option.isNone_iff_eq_none.mpr hlookup), hf⟩

/-- The provider is asked for the keys with the chosen ones put back. -/
theorem Reachable.isFilled (h : t.Reachable) {f : Fallback κ δ} (hf : t.fallback = some f)
    (hkeys : Belong t.dimensions keys) : IsFilled f.choices keys (fillChoices f.choices keys) := by
  have hlen : keys.length = LinModel.openPlaces f.choices := by
    rw [h.openPlaces f hf]
    exact hkeys.length_eq.symm
  exact isFilled_fillChoices hlen

/-- What is not stored is asked of the provider. -/
theorem Reachable.missing_of_foundAt (h : t.Reachable) (hkeys : Belong t.dimensions keys)
    {provider : δ} {asked : List κ} (hfound : t.foundAt keys = some (.missing provider asked)) :
    ∃ f, t.fallback = some f ∧ provider = f.provider ∧ IsFilled f.choices keys asked ∧
      ((∀ c ∈ f.choices, c = none) → asked = keys) := by
  obtain ⟨value, -, hcase⟩ | ⟨f, -, hf, hcase⟩ | ⟨-, -, hcase⟩ := t.foundAt_cases keys
  · rw [hcase] at hfound
    cases hfound
  · rw [hcase] at hfound
    cases hfound
    have hfilled := h.isFilled hf hkeys
    exact ⟨f, hf, rfl, hfilled, fun hopen => hfilled.eq_of_open hopen⟩
  · rw [hcase] at hfound
    cases hfound

theorem lookup_of_not_contains (h : t.contains keys = false) :
    t.grid.lookup t.dimensions keys = none :=
  Option.isNone_iff_eq_none.mp (Option.isSome_eq_false_iff.mp h)

variable [EquivBEq κ]

theorem Reachable.lookup_iff (h : t.Reachable) (keys : List κ) (value : α) :
    t.grid.lookup t.dimensions keys = some value ↔ t.Lists keys value :=
  Grid.lookup_eq_some_iff h.isTidy.grid

/-- What is found is the stored value exactly where one is listed. -/
theorem Reachable.stored_iff (h : t.Reachable) {found : Found κ δ α}
    (hfound : t.foundAt keys = some found) (value : α) :
    found = .stored value ↔ t.Lists keys value := by
  rw [← h.lookup_iff]
  obtain ⟨stored, hlookup, hcase⟩ | ⟨f, hlookup, -, hcase⟩ | ⟨-, -, hcase⟩ := t.foundAt_cases keys
  · rw [hcase] at hfound
    cases hfound
    rw [hlookup, Option.some_inj]
    exact ⟨Found.stored.inj, congrArg Found.stored⟩
  · rw [hcase] at hfound
    cases hfound
    rw [hlookup]
    exact iff_of_false nofun nofun
  · rw [hcase] at hfound
    cases hfound

/-- **A tensor is a finite map**, however it was got. -/
theorem Reachable.isFiniteMap (h : t.Reachable) : t.IsFiniteMap := by
  have htidy := h.isTidy
  have hlookup := h.lookup_iff
  have hbelong : ∀ item ∈ t.items, Belong t.dimensions item.1 :=
    fun item => Grid.belong_of_mem_items htidy.grid
  refine
    { tidy := htidy
      belong := hbelong
      different := Grid.allDifferent_items htidy.grid
      contains_iff := fun keys _ => ?_
      find_listed := fun keys value hlisted => ?_
      find_provided := fun keys f hkeys hmissing hf => ?_
      find_refused := fun keys hkeys hmissing hf => ?_
      find_stray := fun keys hlen hkeys => ?_
      size_eq := rfl
      size_le := Grid.length_items_le htidy.grid }
  · simp only [contains, Option.isSome_iff_exists, hlookup]
  · obtain ⟨item, hitem, hsame, -⟩ := id hlisted
    have hkeys : Belong t.dimensions keys := (hbelong item hitem).congr hsame
    rw [find_of_belong hkeys, foundAt, (hlookup keys value).mpr hlisted]
  · have hfilled := h.isFilled hf hkeys
    refine ⟨_, ?_, hfilled, fun hopen => hfilled.eq_of_open hopen⟩
    rw [find_of_belong hkeys, foundAt, lookup_of_not_contains hmissing, hf]
  · rw [find_of_belong hkeys, foundAt, lookup_of_not_contains hmissing, hf]
  · obtain ⟨dimension, domain, key, hstray, herror⟩ := exactKeys_of_not_belong hlen hkeys 0
    refine ⟨dimension, domain, key, hstray, ?_⟩
    rw [find_eq (by rwa [List.length_map]), herror, error_bind, Nat.zero_add]

/-- Numbers under plain keys, nested. -/
inductive Nest
  | leaf (n : ℕ)
  | node (entries : List (PlainKey × Nest))

/-- How these are nested. -/
def Nest.view : NestedView PlainKey Nest where
  entries?
    | .leaf _ => none
    | .node entries => some entries
  typeName
    | .leaf _ => "int"
    | .node _ => "dict"

/-- A sparse tensor over two numbers, two texts and two numbers, with a provider. -/
def stock : Except (TensorError PlainKey) (Tensor PlainKey Unit Nest) :=
  ofNested Nest.view
    [[.number 1, .number 2], [.text "a", .text "b"], [.number 0, .number 5]]
    (.node [(.number 1, .node [(.text "a", .node [(.number 5, .leaf 7)])])]) (some ()) none

/-- A sparse tensor and a sub-tensor of it. The one key tuple that the sub-tensor lists is in it
with its first key given as a truth value, and another one of its domains is not. -/
theorem stock_isFiniteMap : ∃ t s, stock = .ok t ∧ t.subTensor [.any, .key (.text "a")] = .ok s ∧
    t.IsFiniteMap ∧ s.IsFiniteMap ∧ s.size = 1 ∧
    s.contains [.truth true, .number 5] = true ∧ s.contains [.number 2, .number 5] = false := by
  have hrun : (stock.toOption.bind fun t =>
      (t.subTensor [.any, .key (.text "a")]).toOption.map fun s => decide (s.size = 1) &&
        (s.contains [.truth true, .number 5] && !s.contains [.number 2, .number 5]))
          = some true := by
    decide +kernel
  obtain ⟨t, ht, hrun⟩ := Option.bind_eq_some_iff.mp hrun
  obtain ⟨s, hs, hrun⟩ := Option.map_eq_some_iff.mp hrun
  have ht := toOption_eq_some.mp ht
  have hs := toOption_eq_some.mp hs
  obtain ⟨hsize, hcontains⟩ := Bool.and_eq_true_iff.mp hrun
  obtain ⟨hlisted, hmissing⟩ := Bool.and_eq_true_iff.mp hcontains
  have hreachable : t.Reachable := .ofNested ht
  have hsub : s.Reachable := .subTensor hreachable hs
  exact ⟨t, s, ht, hs, hreachable.isFiniteMap, hsub.isFiniteMap, of_decide_eq_true hsize, hlisted,
    Bool.not_eq_eq_eq_not.mp hmissing⟩

/-! ### Sub-tensors -/

/-- **Reading through a sub-tensor is reading the tensor.** For every tensor that can be got and
every sub-tensor of it, looking up keys in the sub-tensor finds what looking up the full keys in the
tensor finds. That is the value that the tensor lists under the full keys; and where it lists none,
its provider, to be asked for the full keys. Or both are refused for their keys: then the full keys
are none of its dimensions, or there is nothing under them. -/
theorem find_subTensor (ht : t.Reachable) {s : Tensor κ δ α} {selectors : List (Selector κ)}
    (hs : t.subTensor selectors = .ok s) (keys : List (Selector κ)) :
    (∃ found full, s.find keys = .ok found ∧ t.find (t.fullKeys selectors keys) = .ok found ∧
        (t.fullKeys selectors keys).map Selector.asKey? = full.map some ∧
        Belong t.dimensions full ∧ (∀ value, found = .stored value ↔ t.Lists full value) ∧
        ∀ provider asked, found = .missing provider asked → ∃ f, t.fallback = some f ∧
          provider = f.provider ∧ IsFilled f.choices full asked ∧
          ((∀ c ∈ f.choices, c = none) → asked = full)) ∨
      ∃ e e', s.find keys = .error e ∧ t.find (t.fullKeys selectors keys) = .error e' ∧
        e.isInvalidKey = true ∧ e'.isInvalidKey = true ∧
        ∀ full, (t.fullKeys selectors keys).map Selector.asKey? = full.map some →
          Belong t.dimensions full → t.contains full = false ∧ t.fallback = none := by
  have hsame := find_subTensor_toOption ht hs keys
  cases hsub : s.find keys with
  | ok found =>
    rw [hsub] at hsame
    have hfound := hsame.symm
    have hlen : (t.fullKeys selectors keys).length = t.rank := by
      by_contra hne
      rw [find_of_length_ne hne] at hfound
      cases hfound
    rw [find_toOption hlen] at hfound
    obtain ⟨full, hexact, hfound⟩ := Option.bind_eq_some_iff.mp hfound
    have hbelong := belong_of_exactKeys hlen hexact
    refine .inl ⟨found, full, rfl, toOption_eq_some.mp hsame.symm, asKey?_of_exactKeys hlen hexact,
      hbelong, ht.stored_iff hfound, ?_⟩
    rintro provider asked rfl
    exact ht.missing_of_foundAt hbelong hfound
  | error e =>
    cases hfull : t.find (t.fullKeys selectors keys) with
    | ok found =>
      rw [hsub, hfull] at hsame
      cases hsame
    | error e' =>
      refine .inr ⟨e, e', rfl, rfl, isInvalidKey_of_find hsub, isInvalidKey_of_find hfull,
        fun full hkeys hbelong => ?_⟩
      rw [find_of_asKeys hbelong hkeys] at hfull
      cases hfound : t.foundAt full with
      | some found =>
        rw [hfound] at hfull
        cases hfull
      | none => exact not_contains_of_foundAt hfound

/-- A sub-tensor of a sub-tensor, whose first key is given as a truth value. It has the value under
the text `a` that the sub-tensor lists, and asks the provider for what that does not list. -/
theorem stock_reads : ∃ t s u, stock = .ok t ∧ t.subTensor [.key (.truth true)] = .ok s ∧
    s.subTensor [.any, .exact (.number 5)] = .ok u ∧
    (u.find [.key (.text "a")] = .ok (.stored (.leaf 7)) ∧
      s.find [.key (.text "a"), .exact (.number 5)] = .ok (.stored (.leaf 7))) ∧
    u.find [.key (.text "b")] = .ok (.missing () [.truth true, .text "b", .number 5]) ∧
      s.find [.key (.text "b"), .exact (.number 5)]
        = .ok (.missing () [.truth true, .text "b", .number 5]) := by
  have hrun : (stock.toOption.bind fun t =>
      (t.subTensor [.key (.truth true)]).toOption.bind fun s =>
      (s.subTensor [.any, .exact (.number 5)]).toOption.map fun u =>
        (s.wildcard, s.fallback, s.items, (u.find [.key (.text "a")]).isOk,
          (u.find [.key (.text "b")]).isOk))
      = some (none, some ⟨(), [some (.truth true), none, none]⟩,
          [([.text "a", .number 5], .leaf 7)], true, true) := rfl
  obtain ⟨t, ht, hrun⟩ := Option.bind_eq_some_iff.mp hrun
  obtain ⟨s, hs, hrun⟩ := Option.bind_eq_some_iff.mp hrun
  obtain ⟨u, hu, hrun⟩ := Option.map_eq_some_iff.mp hrun
  simp only [Prod.mk.injEq] at hrun
  obtain ⟨hwildcard, hfallback, hitems, hokA, hokB⟩ := hrun
  have hs := toOption_eq_some.mp hs
  have hu := toOption_eq_some.mp hu
  have hreachable : s.Reachable := .subTensor (.ofNested (toOption_eq_some.mp ht)) hs
  have hfull : ∀ k, s.fullKeys [.any, .exact (.number 5)] [.key k] = [.key k, .exact (.number 5)] :=
    fun k => rfl
  -- both look up the text and the number, and both find something
  have hread : ∀ k, (u.find [.key k]).isOk = true → ∃ found,
      u.find [.key k] = .ok found ∧ s.find [.key k, .exact (.number 5)] = .ok found ∧
      (∀ value, found = .stored value ↔ s.Lists [k, .number 5] value) ∧
      ∀ provider asked, found = .missing provider asked →
        IsFilled [some (.truth true), none, none] [k, .number 5] asked := by
    intro k hok
    rcases find_subTensor hreachable hu [.key k] with
      ⟨found, full, hfound, hfound', hkeys, -, hstored, hmissing⟩ | ⟨e, -, he, -⟩
    · rw [hfull] at hfound' hkeys
      obtain rfl : [k, .number 5] = full :=
        List.map_injective_iff.mpr (fun _ _ => Option.some.inj) hkeys
      refine ⟨found, hfound, hfound', hstored, fun provider asked h => ?_⟩
      obtain ⟨f, hf, -, hfilled, -⟩ := hmissing provider asked h
      rw [hfallback] at hf
      cases hf
      exact hfilled
    · rw [he] at hok
      cases hok
  refine ⟨t, s, u, toOption_eq_some.mp ht, hs, hu, ?_, ?_⟩
  · obtain ⟨found, hu, hs, hstored, -⟩ := hread _ hokA
    have hlists : s.Lists [.text "a", .number 5] (.leaf 7) := by
      refine ⟨([.text "a", .number 5], .leaf 7), ?_, BEq.rfl, rfl⟩
      rw [hitems]
      exact List.mem_singleton_self _
    obtain rfl := (hstored _).mpr hlists
    exact ⟨hu, hs⟩
  · obtain ⟨found, hu, hs, hstored, hfilled⟩ := hread _ hokB
    cases found with
    | stored value =>
      obtain ⟨item, hitem, hsame, -⟩ := (hstored value).mp rfl
      rw [hitems] at hitem
      cases List.mem_singleton.mp hitem
      exact absurd hsame (by decide +kernel)
    | missing provider asked =>
      have hasked := hfilled provider asked rfl
      have hfirst : asked[0]? = some (.truth true) := hasked.chosen 0 _ rfl
      have hrest := hasked.opened
      cases asked with
      | nil => cases hfirst
      | cons k asked =>
        cases Option.some.inj hfirst
        have hlast : asked = [.text "b", .number 5] := by
          have hopen : IsFilled [none, none] [.text "b", .number 5] asked :=
            ⟨Nat.succ.inj hasked.length_eq, fun i k' hk' => hasked.chosen (i + 1) k' hk', hrest⟩
          exact hopen.eq_of_open (by simp)
        rw [hlast] at hu hs
        exact ⟨hu, hs⟩

end Tensor

end LinModel
