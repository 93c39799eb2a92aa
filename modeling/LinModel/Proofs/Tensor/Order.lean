import Mathlib.Algebra.BigOperators.Group.List.Basic
import LinModel.Proofs.Tensor.Storage

/-!
# The order of key tuples

A key has a position in the domain of its dimension. Key tuples come in the lexicographic order of
their positions, the first dimension first: `product` lists every key tuple once in this order
(`pairwise_product`). A grid is ordered if every branch has its keys from the domain, in the order
of the domain; then it lists its key tuples as `product` does, without some
(`Grid.sublist_product`). However a grid is stored, narrowing lists the keys of kept dimensions
anew, so what is narrowed is ordered (`Grid.isOrdered_narrow`).

Key definitions: `positions`, `Before`, `Grid.IsOrdered`.
Key theorems: `pairwise_product`, `length_product`, `Grid.sublist_product`,
`Grid.isOrdered_narrow`.
-/
namespace LinModel

variable {κ δ α : Type}

/-! ### Positions -/

section Positions

variable [BEq κ]

/-- The positions of keys in the domains of their dimensions. -/
def positions (dims : List (List κ)) (keys : List κ) : List ℕ :=
  List.zipWith (fun domain k => domain.findIdx (· == k)) dims keys

/-- A key tuple comes before another in the lexicographic order of positions. -/
def Before (dims : List (List κ)) (keys keys' : List κ) : Prop :=
  positions dims keys < positions dims keys'

theorem before_cons_of_lt {domain : List κ} {dims : List (List κ)} {k k' : κ} {keys keys' : List κ}
    (h : domain.findIdx (· == k) < domain.findIdx (· == k')) :
    Before (domain :: dims) (k :: keys) (k' :: keys') :=
  List.cons_lt_cons_iff.mpr (.inl h)

theorem before_cons_self {domain : List κ} {dims : List (List κ)} (k : κ) {keys keys' : List κ}
    (h : Before dims keys keys') : Before (domain :: dims) (k :: keys) (k :: keys') :=
  List.cons_lt_cons_iff.mpr (.inr ⟨rfl, h⟩)

variable [ReflBEq κ]

/-- Different keys of a domain stand in it one after the other. -/
theorem pairwise_findIdx : ∀ {domain : List κ}, AllDifferent domain →
    domain.Pairwise fun a b => domain.findIdx (· == a) < domain.findIdx (· == b)
  | [], _ => .nil
  | k :: domain, h => by
    obtain ⟨hk, hdomain⟩ := List.pairwise_cons.mp h
    have hfirst : (k :: domain).findIdx (· == k) = 0 := by
      rw [List.findIdx_cons, BEq.rfl]
      rfl
    have hrest : ∀ a ∈ domain,
        (k :: domain).findIdx (· == a) = domain.findIdx (· == a) + 1 := fun a ha => by
      rw [List.findIdx_cons, hk a ha]
      rfl
    refine List.pairwise_cons.mpr ⟨fun a ha => ?_, ?_⟩
    · rw [hfirst, hrest a ha]
      exact Nat.succ_pos _
    · refine (pairwise_findIdx hdomain).imp_of_mem fun {a b} ha hb hab => ?_
      rw [hrest a ha, hrest b hb]
      exact Nat.succ_lt_succ hab

/-- **Key tuples are listed in lexicographic order**, each once. -/
theorem pairwise_product : ∀ {dims : List (List κ)}, (∀ domain ∈ dims, AllDifferent domain) →
    (product dims).Pairwise (Before dims)
  | [], _ => List.pairwise_singleton _ _
  | domain :: dims, h => by
    obtain ⟨hdomain, hdims⟩ := List.forall_mem_cons.mp h
    refine List.pairwise_flatMap.mpr ⟨fun k _ => ?_, ?_⟩
    · -- under one key the rests come in order
      exact List.pairwise_map.mpr ((pairwise_product hdims).imp (before_cons_self k))
    · -- under two keys these do
      refine (pairwise_findIdx hdomain).imp fun {a b} hab => ?_
      rintro _ hx _ hy
      obtain ⟨x, -, rfl⟩ := List.mem_map.mp hx
      obtain ⟨y, -, rfl⟩ := List.mem_map.mp hy
      exact before_cons_of_lt hab

end Positions

theorem length_product : ∀ dims : List (List κ),
    (product dims).length = (dims.map List.length).prod
  | [] => rfl
  | domain :: dims => by
    rw [product, List.length_flatMap, List.map_cons, List.prod_cons]
    simp only [List.length_map, length_product dims, List.map_const', List.sum_replicate,
      Nat.nsmul_eq_mul]

/-! ### Ordered grids -/

/-- Lists for some keys of a domain, one after the other in its order. -/
theorem Entries.sublist_flatMap {β γ : Type} {f : κ × β → List γ} {g : κ → List γ} :
    ∀ {domain : List κ} {entries : Entries κ β}, (keys entries).Sublist domain →
      (∀ entry ∈ entries, (f entry).Sublist (g entry.1)) →
      (List.flatMap f entries).Sublist (domain.flatMap g)
  | _, [], _, _ => List.nil_sublist _
  | k :: domain, (key, v) :: entries, hkeys, h => by
    cases hkeys with
    | cons _ hrest =>
      exact (sublist_flatMap hrest h).trans (List.sublist_append_right (g k) _)
    | cons_cons _ hrest =>
      obtain ⟨hfirst, h⟩ := List.forall_mem_cons.mp h
      exact hfirst.append (sublist_flatMap hrest h)

/-- Entries under some keys of a domain in its order, whose values are of a kind. -/
structure Entries.AreOrdered {β : Type} (domain : List κ) (kind : β → Prop)
    (entries : Entries κ β) : Prop where
  keys : entries.keys.Sublist domain
  values : ∀ entry ∈ entries, kind entry.2

namespace Grid

/-- A grid in whose branches the keys are some of their domain, in its order. -/
def IsOrdered : (dims : List (List κ)) → Grid κ α dims → Prop
  | [], _ => True
  | domain :: dims, entries => Entries.AreOrdered domain (IsOrdered dims) entries

/-- The key tuples of a grid are those of its branches with the keys of the branches in front. -/
theorem keys_items_cons (domain : List κ) {dims : List (List κ)}
    (entries : Entries κ (Grid κ α dims)) :
    (items (domain :: dims) entries).map Prod.fst
      = List.flatMap (fun entry => ((items dims entry.2).map Prod.fst).map (entry.1 :: ·))
        entries := by
  refine List.map_flatMap.trans (List.flatMap_congr fun entry _ => ?_)
  rw [List.map_map, List.map_map]
  rfl

/-- **An ordered grid lists its key tuples as `product` does**, without some. -/
theorem sublist_product : ∀ {dims : List (List κ)} {grid : Grid κ α dims}, IsOrdered dims grid →
    ((items dims grid).map Prod.fst).Sublist (product dims)
  | [], _, _ => List.Sublist.refl _
  | domain :: dims, entries, h => by
    rw [keys_items_cons domain entries]
    exact Entries.sublist_flatMap h.keys fun entry hentry =>
      (sublist_product (h.values entry hentry)).map (entry.1 :: ·)

variable [Key κ]

theorem areOrdered_keep {β γ : Type} {domain : List κ} {f : γ → Option β} {entries : Entries κ γ}
    {kept : Entries κ β} {kind : β → Prop}
    (hf : ∀ child narrowed, f child = some narrowed → kind narrowed)
    (h : narrow.keep domain f entries = some kept) : kept.AreOrdered domain kind := by
  unfold narrow.keep at h
  obtain ⟨used, hused, hall⟩ :=
    Entries.exists_sublist_of_filterMap (fun k => (Entries.find? k entries).bind f) domain
  by_cases hempty : (domain.filterMap fun k =>
      ((Entries.find? k entries).bind f).map fun child => (k, child)).isEmpty = true
  · rw [if_pos hempty] at h
    cases h
  · rw [if_neg hempty] at h
    cases h
    have hkeys : used.map id = Entries.keys _ := map_eq_of_forall₂ hall fun k entry h => h.1
    rw [List.map_id] at hkeys
    refine ⟨hkeys ▸ hused, fun entry hentry => ?_⟩
    obtain ⟨k, -, -, hnarrowed⟩ := exists_mem_of_forall₂ hall hentry
    obtain ⟨child, -, hchild⟩ := Option.bind_eq_some_iff.mp hnarrowed
    exact hf child entry.2 hchild

/-- **What is narrowed is ordered**, in whichever order it was stored. -/
theorem isOrdered_narrow : ∀ {dims : List (List κ)} {choices : List (Option κ)}
    {grid : Grid κ α dims} {narrowed : Grid κ α (keptDimensions dims choices)},
    narrow dims choices grid = some narrowed → IsOrdered (keptDimensions dims choices) narrowed
  | [], [], _, _, _ | [], _ :: _, _, _, _ => trivial
  | domain :: dims, some k :: choices, grid, narrowed, h => by
    obtain ⟨child, -, h⟩ := Option.bind_eq_some_iff.mp h
    have ih := isOrdered_narrow h
    exact ih
  | domain :: dims, none :: choices, grid, narrowed, h =>
    areOrdered_keep (fun _ _ hchild => isOrdered_narrow hchild) h
  | domain :: dims, [], grid, narrowed, h =>
    areOrdered_keep (fun _ _ hchild => isOrdered_narrow hchild) h

end Grid

end LinModel
