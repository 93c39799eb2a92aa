import LinModel.Proofs.Tensor.Filling
import LinModel.Proofs.Tensor.Keys
import LinModel.Proofs.Tensor.Order

/-!
# A provider is asked for every key tuple once

A provider may have a state, and may fail. Asked for key tuples one after the other it either
answers for all of them, or it answers for some and fails for the next (`Answers.total`). Filling a
tensor asks for the key tuples of its dimensions in the order of `product`. If all calls return, the
tensor lists exactly what they returned, in this order; if a call fails, so does filling, with this
failure and in the state that the call leaves, and nothing more is asked for
(`Tensor.generate_asks`). What was asked for is what a provider that takes notes has noted
(`recording`).

Key definitions: `Answers`, `FailsAt`, `recording`, `Tensor.IsProvided`.
Key theorems: `mem_product_iff`, `Answers.total`, `Grid.runFrom_fill_of_answers`,
`Grid.runFrom_fill_of_failsAt`, `Tensor.generate_asks`.
-/
namespace LinModel

variable {σ ε κ δ α : Type}

theorem mem_product_iff : ∀ {dims : List (List κ)} {keys : List κ},
    keys ∈ product dims ↔ List.Forall₂ (fun domain k => k ∈ domain) dims keys
  | [], keys => by rw [product, List.mem_singleton, List.forall₂_nil_left_iff]
  | domain :: dims, keys => by
    rw [product, List.mem_flatMap, List.forall₂_cons_left_iff]
    constructor
    · rintro ⟨k, hk, htuple⟩
      obtain ⟨rest, hrest, rfl⟩ := List.mem_map.mp htuple
      exact ⟨k, rest, hk, mem_product_iff.mp hrest, rfl⟩
    · rintro ⟨k, rest, hk, hrest, rfl⟩
      exact ⟨k, hk, List.mem_map_of_mem (mem_product_iff.mpr hrest)⟩

/-! ### Calls -/

/-- Calls that return, one after the other, each in the state that the one before leaves. -/
inductive Answers (provide : List κ → ExceptT ε (StateM σ) α) :
    σ → List (List κ) → List α → σ → Prop
  | nil {s : σ} : Answers provide s [] [] s
  | cons {s s' s'' : σ} {keys : List κ} {tuples : List (List κ)} {value : α} {values : List α} :
      runFrom (provide keys) s = (.ok value, s') → Answers provide s' tuples values s'' →
        Answers provide s (keys :: tuples) (value :: values) s''

/-- Of the calls for key tuples, the one for `keys` fails with `e`; those for `asked` before it
returned. -/
structure FailsAt (provide : List κ → ExceptT ε (StateM σ) α) (before : σ)
    (tuples asked : List (List κ)) (keys : List κ) (e : ε) (after : σ) : Prop where
  splits : ∃ rest, tuples = asked ++ keys :: rest
  fails : ∃ values s, Answers provide before asked values s ∧
    runFrom (provide keys) s = (.error e, after)

/-- A provider that notes the key tuples that it is asked for. -/
def recording (provide : List κ → ExceptT ε (StateM σ) α) (keys : List κ) :
    ExceptT ε (StateM (σ × List (List κ))) α := fun s =>
  ((runFrom (provide keys) s.1).1, (runFrom (provide keys) s.1).2, s.2 ++ [keys])

variable {provide : List κ → ExceptT ε (StateM σ) α} {before after : σ}
  {tuples : List (List κ)} {values : List α}

theorem runFrom_recording (keys : List κ) (s : σ × List (List κ)) :
    runFrom (recording provide keys) s
      = ((runFrom (provide keys) s.1).1, (runFrom (provide keys) s.1).2, s.2 ++ [keys]) := rfl

/-- **Either all calls return or one of them is the first to fail.** -/
theorem Answers.total (provide : List κ → ExceptT ε (StateM σ) α) :
    ∀ (tuples : List (List κ)) (before : σ),
      (∃ values after, Answers provide before tuples values after) ∨
        ∃ asked keys e after, FailsAt provide before tuples asked keys e after
  | [], before => .inl ⟨[], before, .nil⟩
  | keys :: tuples, before => by
    rcases hcall : runFrom (provide keys) before with ⟨e | value, s⟩
    · exact .inr ⟨[], keys, e, s, ⟨tuples, rfl⟩, [], before, .nil, hcall⟩
    · rcases total provide tuples s with ⟨values, after, hall⟩ |
        ⟨asked, failing, e, after, ⟨rest, hrest⟩, values, s', hasked, hfails⟩
      · exact .inl ⟨value :: values, after, .cons hcall hall⟩
      · refine .inr ⟨keys :: asked, failing, e, after, ⟨rest, ?_⟩, value :: values, s',
          .cons hcall hasked, hfails⟩
        rw [hrest, List.cons_append]

namespace Answers

theorem length_eq (h : Answers provide before tuples values after) :
    values.length = tuples.length := by
  induction h with
  | nil => rfl
  | cons _ _ ih => rw [List.length_cons, List.length_cons, ih]

theorem mapM (h : Answers provide before tuples values after) :
    runFrom (tuples.mapM provide) before = (.ok values, after) := by
  induction h with
  | nil => rfl
  | cons hcall _ ih =>
    rw [List.mapM_cons, runFrom_bind, hcall]
    simp only [runFrom_bind, ih, runFrom_pure]

theorem recording (h : Answers provide before tuples values after) : ∀ noted : List (List κ),
    Answers (recording provide) (before, noted) tuples values (after, noted ++ tuples) := by
  induction h with
  | nil =>
    intro noted
    rw [List.append_nil]
    exact .nil
  | @cons s s' s'' keys tuples value values hcall _ ih =>
    intro noted
    have hrest := ih (noted ++ [keys])
    rw [List.append_assoc] at hrest
    refine .cons ?_ hrest
    rw [runFrom_recording, hcall]

end Answers

/-- A provider that takes notes fails where it would without, and has noted this call too. -/
theorem FailsAt.recording {asked : List (List κ)} {keys : List κ} {e : ε}
    (h : FailsAt provide before tuples asked keys e after) :
    FailsAt (recording provide) (before, []) tuples asked keys e (after, asked ++ [keys]) := by
  obtain ⟨values, s, hasked, hfails⟩ := h.fails
  refine ⟨h.splits, values, (s, asked), hasked.recording [], ?_⟩
  rw [runFrom_recording, hfails]

/-! ### Filling -/

namespace Grid

variable [Key κ] {dims : List (List κ)}

def storeAll (dims : List (List κ)) (grid : Grid κ α dims) (pairs : List (List κ × α)) :
    Grid κ α dims :=
  pairs.foldl (fun grid pair => store dims pair.1 pair.2 (some grid)) grid

theorem runFrom_fill_of_answers (h : Answers provide before tuples values after) :
    ∀ grid : Grid κ α dims, runFrom (fill provide dims grid tuples) before
      = (.ok (storeAll dims grid (tuples.zip values)), after) := by
  induction h with
  | nil => exact fun grid => rfl
  | cons hcall _ ih =>
    intro grid
    rw [fill_cons, runFrom_bind, hcall]
    exact ih _

theorem runFrom_fill_of_failsAt {asked : List (List κ)} {keys : List κ} {e : ε}
    (h : FailsAt provide before tuples asked keys e after) (grid : Grid κ α dims) :
    runFrom (fill provide dims grid tuples) before = (.error e, after) := by
  obtain ⟨rest, rfl⟩ := h.splits
  obtain ⟨values, s, hasked, hfails⟩ := h.fails
  rw [fill_append, runFrom_bind, runFrom_fill_of_answers hasked]
  simp only [fill_cons, runFrom_bind, hfails]

end Grid

namespace Tensor

variable [Key κ] {dims : List (List κ)} {t : Tensor κ δ α}

/-- A tensor of what a provider answers for all key tuples. -/
structure IsProvided (dims : List (List κ)) (provide : List κ → ExceptT ε (StateM σ) α)
    (before after : σ) (values : List α) (t : Tensor κ δ α) : Prop where
  answers : Answers provide before (product dims) values after
  dimensions_eq : t.dimensions = dims
  /-- The key tuples are listed in the order of the calls, each with what its call returned. -/
  items_eq : t.items = (product dims).zip values
  size_eq : t.size = (dims.map List.length).prod

variable {wildcard : Option κ}

theorem runFrom_generate (hne : dims ≠ [])
    (hdims : ∀ domain ∈ dims, AllDifferent domain ∧ ∀ k ∈ domain, Key.usable k = true)
    (hwild : ∀ domain ∈ dims, IsApart wildcard domain) (refuse : TensorError κ → ε)
    (provide : List κ → ExceptT ε (StateM σ) α) (provider : Option δ) (before : σ) :
    runFrom (generate refuse dims provide provider wildcard) before
      = ((runFrom (Grid.generate provide dims) before).1.map
          fun grid => ⟨dims, grid, provider.map (Fallback.ofProvider · dims), wildcard⟩,
        (runFrom (Grid.generate provide dims) before).2) := by
  unfold generate
  rw [checkDimensions_eq_ok hne hdims hwild]
  exact runFrom_map ..

theorem isProvided_of_answers [ReflBEq κ] {domain : List κ}
    (hdims : ∀ d ∈ domain :: dims, AllDifferent d) {values : List α}
    (h : Answers provide before (product (domain :: dims)) values after)
    (fallback : Option (Fallback κ δ)) (wildcard : Option κ) :
    IsProvided (domain :: dims) provide before after values ⟨domain :: dims,
      Grid.storeAll (domain :: dims) (.empty domain dims) ((product (domain :: dims)).zip values),
      fallback, wildcard⟩ := by
  have hfill := Grid.runFrom_fill_of_answers h (Grid.empty domain dims)
  obtain ⟨values', hpass, hitems⟩ := Grid.exists_values hdims hfill
  have hvalues : values' = values := by
    rw [h.mapM] at hpass
    cases hpass
    rfl
  rw [hvalues] at hitems
  refine ⟨h, rfl, hitems, ?_⟩
  rw [size, items, hitems, List.length_zip, h.length_eq, Nat.min_self, length_product]

/-- **A provider is asked for every key tuple once, in order.** Over at least one dimension, each
with different keys, and whatever the provider does: the key tuples are those with a key of every
domain, one after the other in lexicographic order. Either all calls for them return, one after the
other; then the tensor lists the key tuples in this order, each with what its call returned, and
these are as many as there are ways to choose a key in each domain. Or the call for some key tuple
fails; then generating the tensor fails with it. A provider that takes notes has been asked for all
key tuples in the one case, and in the other for those up to the one that failed. -/
theorem generate_asks [ReflBEq κ] (hne : dims ≠ [])
    (hdims : ∀ domain ∈ dims, AllDifferent domain ∧ ∀ k ∈ domain, Key.usable k = true)
    (hwild : ∀ domain ∈ dims, IsApart wildcard domain) (refuse : TensorError κ → ε)
    (provide : List κ → ExceptT ε (StateM σ) α) (provider : Option δ) (before : σ) :
    ((product dims).Pairwise (Before dims) ∧
      ∀ keys, keys ∈ product dims ↔ List.Forall₂ (fun domain k => k ∈ domain) dims keys) ∧
    ((∃ t values after, IsProvided dims provide before after values t ∧
        runFrom (generate refuse dims provide provider wildcard) before = (.ok t, after) ∧
        runFrom (generate refuse dims (recording provide) provider wildcard) (before, [])
          = (.ok t, after, product dims)) ∨
      ∃ asked keys e after, FailsAt provide before (product dims) asked keys e after ∧
        runFrom (generate refuse dims provide provider wildcard) before = (.error e, after) ∧
        runFrom (generate refuse dims (recording provide) provider wildcard) (before, [])
          = (.error e, after, asked ++ [keys])) := by
  have hdifferent : ∀ domain ∈ dims, AllDifferent domain := fun domain h => (hdims domain h).1
  refine ⟨⟨pairwise_product hdifferent, fun _ => mem_product_iff⟩, ?_⟩
  simp only [runFrom_generate hne hdims hwild]
  obtain ⟨domain, rest, rfl⟩ := List.exists_cons_of_ne_nil hne
  rcases Answers.total provide (product (domain :: rest)) before with
    ⟨values, after, hanswers⟩ | ⟨asked, keys, e, after, hfails⟩
  · left
    have hrun := Grid.runFrom_fill_of_answers hanswers (Grid.empty domain rest)
    have hnoted := Grid.runFrom_fill_of_answers (hanswers.recording []) (Grid.empty domain rest)
    have hprovided := isProvided_of_answers hdifferent hanswers
      (provider.map (Fallback.ofProvider · (domain :: rest))) wildcard
    refine ⟨_, values, after, hprovided, ?_, ?_⟩
    · rw [Grid.generate, hrun]
      rfl
    · rw [Grid.generate, hnoted]
      rfl
  · right
    have hrun := Grid.runFrom_fill_of_failsAt hfails (Grid.empty domain rest)
    have hnoted := Grid.runFrom_fill_of_failsAt hfails.recording (Grid.empty domain rest)
    refine ⟨asked, keys, e, after, hfails, ?_, ?_⟩
    · rw [Grid.generate, hrun]
      rfl
    · rw [Grid.generate, hnoted]
      rfl

/-- A provider that counts its calls. It refuses one key tuple and returns the count for others. -/
def counting (refused keys : List PlainKey) : ExceptT String (StateM ℕ) ℕ := do
  modify (· + 1)
  if keys == refused then throw "refused"
  get

def desks : List (List PlainKey) := [[.text "a", .text "b"], [.truth true, .number 2]]

def counted {σ : Type} (provide : List PlainKey → ExceptT String (StateM σ) ℕ) (before : σ) :
    Except String (Tensor PlainKey Unit ℕ) × σ :=
  runFrom (generate (fun _ => "unfit") desks provide none none) before

/-- All four desks are counted. If the third is refused, the fourth is not asked for. -/
theorem desks_counted :
    (∃ t values, IsProvided desks (counting []) 0 4 values t ∧ values = [1, 2, 3, 4] ∧
      counted (counting []) 0 = (.ok t, 4)) ∧
    ∃ asked keys, FailsAt (counting [.text "b", .truth true]) 0 (product desks) asked keys
        "refused" 3 ∧
      asked ++ [keys] = [[.text "a", .truth true], [.text "a", .number 2],
        [.text "b", .truth true]] ∧
      counted (counting [.text "b", .truth true]) 0 = (.error "refused", 3) := by
  have hne : desks ≠ [] := List.cons_ne_nil _ _
  have hdims : ∀ domain ∈ desks, AllDifferent domain ∧ ∀ k ∈ domain, Key.usable k = true := by
    refine List.forall_mem_cons.mpr ⟨⟨List.pairwise_pair.mpr ?_, fun _ _ => rfl⟩,
      List.forall_mem_singleton.mpr ⟨List.pairwise_pair.mpr ?_, fun _ _ => rfl⟩⟩
    · decide +kernel
    · decide +kernel
  have hwild : ∀ domain ∈ desks, IsApart none domain := fun domain _ => isApart_none domain
  constructor
  · have hcount : (counted (counting []) 0).1.toOption.map (·.items.map Prod.snd)
        = some [1, 2, 3, 4] := by decide +kernel
    have hafter : (counted (counting []) 0).2 = 4 := by decide +kernel
    rcases (generate_asks (δ := Unit) hne hdims hwild (fun _ => "unfit") (counting []) none 0).2
      with ⟨t, values, after, hprovided, hrun, -⟩ | ⟨asked, keys, e, after, -, hrun, -⟩
    · rw [counted, hrun] at hcount hafter
      have hvalues : t.items.map Prod.snd = [1, 2, 3, 4] := Option.some.inj hcount
      rw [hprovided.items_eq, List.map_snd_zip hprovided.answers.length_eq.le] at hvalues
      obtain rfl : after = 4 := hafter
      exact ⟨t, values, hprovided, hvalues, hrun⟩
    · rw [counted, hrun] at hcount
      cases hcount
  · have hnoted : counted (recording (counting [.text "b", .truth true])) (0, [])
        = (.error "refused", 3, [[.text "a", .truth true], [.text "a", .number 2],
          [.text "b", .truth true]]) := rfl
    rcases (generate_asks (δ := Unit) hne hdims hwild (fun _ => "unfit")
        (counting [.text "b", .truth true]) none 0).2
      with ⟨t, values, after, -, -, hrun⟩ | ⟨asked, keys, e, after, hfails, hrun, hasked⟩
    · rw [counted, hrun] at hnoted
      cases hnoted
    · rw [counted, hasked] at hnoted
      obtain ⟨he, hleft⟩ := Prod.mk.inj hnoted
      obtain ⟨rfl, htuples⟩ := Prod.mk.inj hleft
      obtain rfl := Except.error.inj he
      exact ⟨asked, keys, hfails, htuples, hrun⟩

end Tensor
end LinModel
