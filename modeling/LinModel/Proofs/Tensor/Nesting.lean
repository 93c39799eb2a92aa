import Mathlib.Data.List.ReduceOption
import LinModel.Proofs.Tensor.Dimensions

/-!
# Nested values go in and come out

A tensor is made from nested mappings, as deep as it has dimensions: every value above that depth
has to be a mapping, and every key on the way one of its dimension. If that holds, the tensor lists
what the mappings hold at the depth of its dimensions, in their order; else the first offence in
depth-first order is reported. In the other direction, what a tensor gives out as nested mappings is
taken in again without a change, even if the values that it stores are mappings themselves
(`Tensor.nested_values_unchanged`).

The conversion is a program of checks that stops at the first fault. What comes of such a program is
put together from its parts: the faults of a sequence are those of its parts, one after the other
(`Reports.bind`, `Reports.collect`).

Key definitions: `Reports`, `Tensor.StandsAt`, `Tensor.Fits`, `Tensor.offences`, `Tensor.held`,
`Tensor.nested`, `Tensor.NestedView.IsLawful`.
Key theorems: `Reports.bind`, `Reports.collect`, `Tensor.offences_eq_nil_iff`,
`Tensor.reports_gridOfNested`, `Tensor.gridOfNested_fold`, `Tensor.nested_values_unchanged`.
-/
namespace LinModel

variable {ε κ δ α β γ : Type}

/-! ### Programs that report their first fault -/

/-- What comes of checks with the given faults: the first of them is reported, and if there is none
what is returned is right. -/
def Reports (faults : List ε) (r : Except ε β) (right : β → Prop) : Prop :=
  match faults with
  | [] => ∃ b, r = .ok b ∧ right b
  | e :: _ => r = .error e

namespace Reports

variable {faults faults' : List ε} {r : Except ε β} {right : β → Prop} {right' : γ → Prop}

theorem pure {b : β} (h : right b) : Reports ([] : List ε) (.ok b) right := ⟨b, rfl, h⟩

/-- The faults of a sequence are those of the first part and then those of the second. -/
theorem bind {f : β → Except ε γ} (h : Reports faults r right)
    (hf : ∀ b, right b → Reports faults' (f b) right') :
    Reports (faults ++ faults') (r >>= f) right' := by
  cases faults with
  | nil =>
    obtain ⟨b, rfl, hb⟩ := h
    rw [ok_bind, List.nil_append]
    exact hf b hb
  | cons e rest =>
    have hfails : r = .error e := h
    rw [hfails, error_bind]
    rfl

theorem mono {right'' : β → Prop} (h : Reports faults r right)
    (himp : ∀ b, right b → right'' b) : Reports faults r right'' := by
  cases faults with
  | nil =>
    obtain ⟨b, hr, hb⟩ := h
    exact ⟨b, hr, himp b hb⟩
  | cons e rest => exact h

/-- The faults of collecting are those of the items, one after the other. -/
theorem collect {f : β → Except ε (Option γ)} {faults : β → List ε}
    {right : β → Option γ → Prop} : ∀ {l : List β},
    (∀ a ∈ l, Reports (faults a) (f a) (right a)) →
      Reports (l.flatMap faults) (LinModel.collect f l)
        (fun found => ∃ results, List.Forall₂ right l results ∧ found = results.reduceOption)
  | [], _ => ⟨[], rfl, [], .nil, rfl⟩
  | a :: l, h => by
    obtain ⟨ha, hl⟩ := List.forall_mem_cons.mp h
    have ih := collect hl
    rw [List.flatMap_cons, LinModel.collect]
    refine bind ha fun found hfound => ?_
    cases found with
    | none =>
      refine ih.mono ?_
      rintro rest ⟨results, hall, rfl⟩
      exact ⟨none :: results, .cons hfound hall, rfl⟩
    | some c =>
      have hmore : Reports (l.flatMap faults ++ [])
          (LinModel.collect f l >>= fun rest => .ok (c :: rest)) fun found =>
            ∃ results, List.Forall₂ right (a :: l) results ∧ found = results.reduceOption := by
        refine bind ih fun rest hrest => pure ?_
        obtain ⟨results, hall, rfl⟩ := hrest
        exact ⟨some c :: results, .cons hfound hall, rfl⟩
      rw [List.append_nil] at hmore
      exact hmore

theorem exists_ok_iff (h : Reports faults r right) : (∃ b, r = .ok b) ↔ faults = [] := by
  cases faults with
  | nil =>
    obtain ⟨b, hr, -⟩ := h
    exact iff_of_true ⟨b, hr⟩ rfl
  | cons e rest =>
    have hfails : r = .error e := h
    simp [hfails]

theorem eq_error_iff (h : Reports faults r right) {e : ε} :
    r = .error e ↔ faults.head? = some e := by
  cases faults with
  | nil =>
    obtain ⟨b, rfl, -⟩ := h
    simp
  | cons e' rest =>
    have hfails : r = .error e' := h
    simp [hfails]

theorem of_ok (h : Reports faults r right) {b : β} (hr : r = .ok b) : right b := by
  cases faults with
  | nil =>
    obtain ⟨b', hr', hb⟩ := h
    cases hr.symm.trans hr'
    exact hb
  | cons e rest =>
    have hfails : r = .error e := h
    cases hr.symm.trans hfails

end Reports

/-- Steps that each have the item of a list as their result collect the list. -/
theorem collect_map_eq_ok {f : β → Except ε (Option γ)} {g : γ → β} : ∀ {l : List γ},
    (∀ c ∈ l, f (g c) = .ok (some c)) → collect f (l.map g) = .ok l
  | [], _ => rfl
  | c :: l, h => by
    obtain ⟨hc, hl⟩ := List.forall_mem_cons.mp h
    rw [List.map_cons, collect, hc, ok_bind]
    simp only [collect_map_eq_ok hl, ok_bind]
    rfl

namespace Tensor

/-! ### What nested values hold -/

section Nested

variable (view : NestedView κ α)

/-- A value stands under the keys of a path in a nested value. -/
inductive StandsAt : α → List κ → α → Prop
  | root {value : α} : StandsAt value [] value
  | under {value child v : α} {entries : List (κ × α)} {k : κ} {path : List κ} :
      view.entries? value = some entries → (k, child) ∈ entries → StandsAt child path v →
        StandsAt value (k :: path) v

/-- What a nested value holds below the given number of keys, depth first. -/
def held : ℕ → α → List (List κ × α)
  | 0, value => [([], value)]
  | depth + 1, value =>
    ((view.entries? value).getD []).flatMap fun entry => Grid.under entry.1 (held depth entry.2)

variable [Key κ]

/-- Every value above the depth of the dimensions is a mapping whose keys are of its dimension. -/
def Fits (dims : List (List κ)) (value : α) : Prop :=
  ∀ path v domain, StandsAt view value path v → dims[path.length]? = some domain →
    ∃ entries, view.entries? v = some entries ∧
      ∀ entry ∈ entries, domain.any (· == entry.1) = true

/-- A key that is not of its dimension. -/
def strayKey (depth : ℕ) (domain : List κ) (k : κ) : List (TensorError κ) :=
  if domain.any (· == k) then [] else [.keyNotAllowed k depth domain]

/-- All that is wrong in a nested value, depth first: values that are no mappings, and keys that are
not of their dimension, each before what stands under it. -/
def offences : ℕ → List (List κ) → α → List (TensorError κ)
  | _, [], _ => []
  | depth, domain :: dims, value =>
    match view.entries? value with
    | none => [.notNested depth (view.typeName value)]
    | some entries => entries.flatMap fun entry =>
      strayKey depth domain entry.1 ++ offences (depth + 1) dims entry.2

/-- Mappings have different keys, and any entries with different keys make a mapping. -/
structure NestedView.IsLawful (node : List (κ × α) → α) : Prop where
  different : ∀ value entries, view.entries? value = some entries →
    AllDifferent (Entries.keys entries)
  entries_node : ∀ entries, AllDifferent (Entries.keys entries) →
    view.entries? (node entries) = some entries

end Nested

variable [Key κ] {view : NestedView κ α} {dims : List (List κ)} {depth : ℕ} {value : α}

theorem fits_nil : Fits view [] value := by
  intro path v domain _ hdomain
  simp at hdomain

/-- A mapping fits if its keys are of the first dimension and its values fit the others. -/
theorem fits_cons {domain : List κ} : Fits view (domain :: dims) value ↔
    ∃ entries, view.entries? value = some entries ∧ ∀ entry ∈ entries,
      domain.any (· == entry.1) = true ∧ Fits view dims entry.2 := by
  constructor
  · intro h
    obtain ⟨entries, hentries, hkeys⟩ := h [] value domain .root rfl
    refine ⟨entries, hentries, fun entry hentry => ⟨hkeys entry hentry, ?_⟩⟩
    intro path v domain' hstands hdomain
    exact h (entry.1 :: path) v domain' (.under hentries hentry hstands) hdomain
  · rintro ⟨entries, hentries, hall⟩ path v domain' hstands hdomain
    cases hstands with
    | root =>
      cases hdomain
      exact ⟨entries, hentries, fun entry hentry => (hall entry hentry).1⟩
    | under hentries' hentry hstands =>
      cases hentries.symm.trans hentries'
      exact (hall _ hentry).2 _ v domain' hstands hdomain

/-- **Nothing is wrong in a nested value if it fits**, and only then. -/
theorem offences_eq_nil_iff : ∀ {dims : List (List κ)} {depth : ℕ} {value : α},
    offences view depth dims value = [] ↔ Fits view dims value
  | [], _, _ => iff_of_true rfl fits_nil
  | domain :: dims, depth, value => by
    rw [fits_cons, offences]
    cases hentries : view.entries? value with
    | none => simp
    | some entries =>
      have hentry : ∀ entry : κ × α, strayKey depth domain entry.1
            ++ offences view (depth + 1) dims entry.2 = [] ↔
          domain.any (· == entry.1) = true ∧ Fits view dims entry.2 := by
        intro entry
        rw [List.append_eq_nil_iff, offences_eq_nil_iff, strayKey]
        simp
      simp [List.flatMap_eq_nil_iff, hentry]

/-! ### From nested values to grids -/

/-- What comes of an entry: a branch that lists what its value holds, or none if that is
nothing. -/
def IsBranch (view : NestedView κ α) (dims : List (List κ)) (entry : κ × α) :
    Option (κ × Grid κ α dims) → Prop
  | none => held view dims.length entry.2 = []
  | some (k, child) => k = entry.1 ∧ Grid.items dims child = held view dims.length entry.2

omit [Key κ] in
/-- The branches have some of the keys, and list what the entries hold. -/
theorem IsBranch.branches {entries : List (κ × α)} {results : List (Option (κ × Grid κ α dims))}
    (h : List.Forall₂ (IsBranch view dims) entries results) :
    (Entries.keys results.reduceOption).Sublist (Entries.keys entries) ∧
      (results.reduceOption.flatMap fun branch =>
          Grid.under branch.1 (Grid.items dims branch.2))
        = entries.flatMap fun entry => Grid.under entry.1 (held view dims.length entry.2) := by
  induction h with
  | nil => exact ⟨List.Sublist.refl _, rfl⟩
  | @cons entry result entries results hfirst _ ih =>
    obtain ⟨hkeys, hitems⟩ := ih
    cases result with
    | none =>
      have hnothing : held view dims.length entry.2 = [] := hfirst
      refine ⟨hkeys.cons entry.1, ?_⟩
      rw [List.reduceOption_cons_of_none, hitems, List.flatMap_cons, hnothing]
      rfl
    | some branch =>
      obtain ⟨k, child⟩ := branch
      obtain ⟨rfl, hchild⟩ := hfirst
      refine ⟨hkeys.cons_cons entry.1, ?_⟩
      rw [List.reduceOption_cons_of_some, List.flatMap_cons, List.flatMap_cons, hitems, hchild]

/-- **A nested value is converted to a grid that lists what it holds**, or refused for the first
offence. -/
theorem reports_gridOfNested
    (hview : ∀ value entries, view.entries? value = some entries →
      AllDifferent (Entries.keys entries)) :
    ∀ (dims : List (List κ)) (depth : ℕ) (value : α),
      Reports (offences view depth dims value) (gridOfNested view depth dims value)
        fun grid => Grid.items dims grid = held view dims.length value
  | [], _, _ => .pure rfl
  | domain :: dims, depth, value => by
    unfold gridOfNested offences
    cases hentries : view.entries? value with
    | none => rfl
    | some entries =>
      have hcheck : ∀ k, Reports (strayKey depth domain k) (checkKey depth domain k)
          fun _ => True := by
        intro k
        unfold strayKey checkKey
        by_cases hk : domain.any (· == k) = true
        · simp only [hk, ↓reduceIte]
          exact .pure trivial
        · simp only [hk, Bool.false_eq_true, ↓reduceIte]
          rfl
      -- a branch is checked by its key and then by its value, and left out if it is bare
      have hbranch : ∀ entry ∈ entries,
          Reports (strayKey depth domain entry.1 ++ offences view (depth + 1) dims entry.2)
            (checkKey depth domain entry.1 >>= fun _ =>
              gridOfNested view (depth + 1) dims entry.2 >>= fun child =>
                .ok (if Grid.isBare dims child then none else some (entry.1, child)))
            (IsBranch view dims entry) := by
        intro entry _
        refine (hcheck entry.1).bind fun _ _ => ?_
        have hchild := reports_gridOfNested hview dims (depth + 1) entry.2
        rw [← List.append_nil (offences view (depth + 1) dims entry.2)]
        refine hchild.bind fun child hitems => .pure ?_
        by_cases hbare : Grid.isBare dims child = true
        · rw [if_pos hbare]
          exact hitems.symm.trans (Grid.items_of_isBare hbare)
        · rw [if_neg hbare]
          exact ⟨rfl, hitems⟩
      simp only
      rw [← List.append_nil (entries.flatMap _)]
      refine (Reports.collect hbranch).bind ?_
      rintro children ⟨results, hall, rfl⟩
      obtain ⟨hkeys, hitems⟩ := IsBranch.branches hall
      refine .pure ?_
      rw [Entries.ofList_of_pairwise ((hview value entries hentries).sublist hkeys)]
      calc Grid.items (domain :: dims) results.reduceOption
          = results.reduceOption.flatMap fun branch =>
              Grid.under branch.1 (Grid.items dims branch.2) := rfl
        _ = entries.flatMap fun entry => Grid.under entry.1 (held view dims.length entry.2) :=
            hitems
        _ = held view (domain :: dims).length value := by
            rw [List.length_cons, held, hentries, Option.getD_some]

/-! ### From grids to nested values -/

/-- **What a tidy grid gives out as nested mappings is taken in again as it is.** -/
theorem gridOfNested_fold {node : List (κ × α) → α} (hview : view.IsLawful node) :
    ∀ {dims : List (List κ)} {grid : Grid κ α dims} (depth : ℕ), Grid.IsTidy dims grid →
      gridOfNested view depth dims (Grid.fold id node dims grid) = .ok grid
  | [], _, _, _ => rfl
  | domain :: dims, grid, depth, htidy => by
    let entries : Entries κ (Grid κ α dims) := grid
    let out : List (κ × α) := entries.map fun entry => (entry.1, Grid.fold id node dims entry.2)
    have hkeys : Entries.keys out = entries.keys := by
      simp [out, Entries.keys, Function.comp_def]
    have hout : view.entries? (node out) = some out :=
      hview.entries_node out (hkeys ▸ htidy.different)
    have hbranch : ∀ entry ∈ entries,
        (checkKey depth domain entry.1 >>= fun _ =>
          gridOfNested view (depth + 1) dims (Grid.fold id node dims entry.2) >>= fun child =>
            .ok (if Grid.isBare dims child then none else some (entry.1, child)))
          = (.ok (some entry) : Except (TensorError κ) _) := by
      intro entry hentry
      obtain ⟨hbare, hchild⟩ := htidy.values entry hentry
      have hcheck : checkKey depth domain entry.1 = .ok () :=
        checkKey_eq_ok.mpr (htidy.known entry hentry)
      rw [hcheck, ok_bind, gridOfNested_fold hview (depth + 1) hchild, ok_bind, hbare]
      rfl
    have hcollect := collect_map_eq_ok (g := fun entry => (entry.1, Grid.fold id node dims entry.2))
      (f := fun entry : κ × α => checkKey depth domain entry.1 >>= fun _ =>
        gridOfNested view (depth + 1) dims entry.2 >>= fun child =>
          .ok (if Grid.isBare dims child then none else some (entry.1, child))) hbranch
    have hfold : Grid.fold id node (domain :: dims) grid = node out := rfl
    rw [hfold, gridOfNested]
    simp only [hout]
    calc _ = (Except.ok (Entries.ofList entries) : Except (TensorError κ) _) := by
          exact congrArg (· >>= fun children => .ok (Entries.ofList children)) hcollect
      _ = .ok grid := by rw [Entries.ofList_of_pairwise htidy.different]

/-- The stored values as nested mappings. -/
def nested (node : List (κ × α) → α) (t : Tensor κ δ α) : α := t.grid.fold id node t.dimensions

/-- **Nested values go in and come out unchanged.** Over proper dimensions a tensor is made from a
nested value if and only if every value above the depth of the dimensions is a mapping and every key
of it belongs to its dimension. Then the tensor lists what the mappings hold at that depth, depth
first in the order of the mappings; otherwise the first offence in this order is reported. In the
other direction, the nested mappings of any tensor that can be got make a tensor over its dimensions
that lists the same and has the same nested mappings. -/
theorem nested_values_unchanged [ReflBEq κ] {node : List (κ × α) → α}
    (hview : view.IsLawful node) :
    (∀ {dims : List (List κ)} {wildcard : Option κ}, AreProper wildcard dims →
      ∀ (values : α) (provider : Option δ),
        ((∃ t, ofNested view dims values provider wildcard = .ok t) ↔ Fits view dims values) ∧
        (∀ t, ofNested view dims values provider wildcard = .ok t →
          t.dimensions = dims ∧ t.items = held view dims.length values) ∧
        ∀ e, ofNested view dims values provider wildcard = .error e ↔
          (offences view 0 dims values).head? = some e) ∧
    ∀ {t : Tensor κ δ α}, t.Reachable → ∀ provider : Option δ,
      ∃ t', ofNested view t.dimensions (t.nested node) provider none = .ok t' ∧
        t'.dimensions = t.dimensions ∧ t'.items = t.items ∧ t'.nested node = t.nested node := by
  refine ⟨fun {dims wildcard} hproper values provider => ?_, fun {t} ht provider => ?_⟩
  · have hmade : Reports (offences view 0 dims values)
        (ofNested view dims values provider wildcard)
        fun t => t.dimensions = dims ∧ t.items = held view dims.length values := by
      have hgrid := reports_gridOfNested hview.different dims 0 values
      unfold ofNested
      rw [checkDimensions_eq_ok_iff.mpr hproper, ok_bind,
        ← List.append_nil (offences view 0 dims values)]
      exact hgrid.bind fun grid hitems => .pure ⟨rfl, hitems⟩
    refine ⟨?_, fun t => hmade.of_ok, fun e => hmade.eq_error_iff⟩
    rw [hmade.exists_ok_iff, offences_eq_nil_iff]
  · have hproper : AreProper none t.dimensions := ht.areProper.withoutWildcard
    have hgrid : gridOfNested view 0 t.dimensions (t.nested node) = .ok t.grid :=
      gridOfNested_fold hview 0 ht.isTidy.grid
    refine ⟨⟨t.dimensions, t.grid, provider.map (Fallback.ofProvider · t.dimensions), none⟩,
      ?_, rfl, rfl, rfl⟩
    unfold ofNested
    rw [checkDimensions_eq_ok_iff.mpr hproper, ok_bind, hgrid]
    rfl

/-- Nested numbers as mappings, in which the last entry of a key counts. -/
def Nest.mapping : NestedView PlainKey Nest where
  entries?
    | .leaf _ => none
    | .node entries => some (Entries.ofList entries)
  typeName := Nest.view.typeName

theorem Nest.mapping_isLawful : Nest.mapping.IsLawful Nest.node where
  different value entries h := by
    cases value with
    | leaf n => cases h
    | node pairs =>
      cases h
      have htidy : (Entries.ofList pairs).AreTidy (Entries.keys pairs) fun _ => True :=
        Entries.areTidy_ofList fun pair hpair =>
          ⟨List.any_eq_true.mpr ⟨pair.1, List.mem_map_of_mem hpair, BEq.rfl⟩, trivial⟩
      exact htidy.different
  entries_node entries h := congrArg some (Entries.ofList_of_pairwise h)

/-- Two dimensions, of two numbers and of two texts. -/
def crateKeys : List (List PlainKey) := [[.number 1, .number 2], [.text "a", .text "b"]]

/-- Something under the first number only, given as a truth value; one of the values is a
mapping. -/
def crates : Nest :=
  .node [(.number 2, .node []), (.truth true, .node [(.text "b", .leaf 8),
    (.text "a", .node [(.text "c", .leaf 7)])])]

/-- A key that is not of the second dimension, and behind it a value that is no mapping. -/
def brokenCrates : Nest :=
  .node [(.number 2, .node [(.text "c", .leaf 8)]), (.number 1, .leaf 4)]

/-- The crates make a tensor of two values, which comes out and goes in again as it is. The broken
ones are refused for the key. -/
theorem crates_unchanged :
    (∃ t t' : Tensor PlainKey Unit Nest,
      ofNested Nest.mapping crateKeys crates none none = .ok t ∧
        (t.items.map Prod.fst
          == [[.truth true, .text "b"], [.truth true, .text "a"]]) = true ∧
        ofNested Nest.mapping t.dimensions (t.nested .node) none none = .ok t' ∧
        t'.items = t.items ∧ t'.nested .node = t.nested .node) ∧
    ∃ e, (ofNested Nest.mapping crateKeys brokenCrates none none :
        Except _ (Tensor PlainKey Unit Nest)) = .error e ∧ e.isInvalidKey = true := by
  have hproper : AreProper none crateKeys := by
    obtain ⟨_, hcheck⟩ := exists_of_isOk
      (by decide +kernel : (checkDimensions crateKeys none).isOk = true)
    exact checkDimensions_eq_ok_iff.mp hcheck
  obtain ⟨hin, hout⟩ := nested_values_unchanged (δ := Unit) Nest.mapping_isLawful
  constructor
  · obtain ⟨hmade, hitems, -⟩ := hin hproper crates none
    have hfits : Fits Nest.mapping crateKeys crates :=
      offences_eq_nil_iff.mp (List.isEmpty_iff.mp (by decide +kernel) :
        offences Nest.mapping 0 crateKeys crates = [])
    obtain ⟨t, ht⟩ := hmade.mpr hfits
    obtain ⟨t', ht', -, hsame, hnested⟩ := hout (.ofNested ht) none
    have hheld : ((held Nest.mapping 2 crates).map Prod.fst
        == [[.truth true, .text "b"], [.truth true, .text "a"]]) = true := by
      decide +kernel
    refine ⟨t, t', ht, ?_, ht', hsame, hnested⟩
    rw [(hitems t ht).2]
    exact hheld
  · obtain ⟨-, -, hrefused⟩ := hin hproper brokenCrates none
    have hfirst : (offences Nest.mapping 0 crateKeys brokenCrates).head?.map
        TensorError.isInvalidKey = some true := by
      decide +kernel
    obtain ⟨e, he, hkey⟩ := Option.map_eq_some_iff.mp hfirst
    exact ⟨e, (hrefused e).mpr he, hkey⟩

end Tensor
end LinModel
