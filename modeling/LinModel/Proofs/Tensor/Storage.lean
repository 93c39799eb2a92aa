import LinModel.Proofs.Tensor.Reading

/-!
# How tensors store their values

However a tensor is got, its grid is tidy: in every branch the keys are different and of the domain
of their dimension, and every branch below the root stores something (`Tensor.Reachable.isTidy`).

The three ways to get a grid reach this in their own way. The branches of a nested mapping are put
into entries one after the other, so a key that is there already gets no second entry; a value that
is asked for is put below every key of its tuple in the same way. The values of a narrowed dimension
come in the order of the domain: their keys are some of the domain's, and these are different. None
leaves a branch without values.

Different keys of a domain are no more than it has (`AllDifferent.length_le`).

Key definitions: `AllDifferent`, `Entries.AreTidy`, `Grid.IsTidy`, `Tensor.IsTidy`.
Key theorems: `AllDifferent.length_le`, `Entries.areTidy_ofList`, `Entries.areTidy_of_sublist`,
`Grid.isTidy_ofNested`, `Grid.isTidy_store`, `Grid.isTidy_narrow`, `Tensor.Reachable.isTidy`.
-/
namespace LinModel

variable {κ δ α β : Type}

/-! ### Different keys -/

/-- Keys of which no two are the same. -/
def AllDifferent [BEq κ] (keys : List κ) : Prop := keys.Pairwise fun a b => (a == b) = false

theorem AllDifferent.length_le [BEq κ] [PartialEquivBEq κ] : ∀ {keys domain : List κ},
    AllDifferent keys → (∀ k ∈ keys, domain.any (· == k) = true) → keys.length ≤ domain.length
  | [], _, _, _ => Nat.zero_le _
  | k :: keys, domain, hkeys, hmem => by
    obtain ⟨hk, hkeys⟩ := List.pairwise_cons.mp hkeys
    obtain ⟨hfirst, hmem⟩ := List.forall_mem_cons.mp hmem
    obtain ⟨d, hd, hdk⟩ := List.any_eq_true.mp hfirst
    -- the place that `k` takes in the domain is none that another key takes
    have hothers : ∀ k' ∈ keys, (domain.eraseP (· == k)).any (· == k') = true := by
      intro k' hk'
      obtain ⟨d', hd', hdk'⟩ := List.any_eq_true.mp (hmem k' hk')
      have hne : ¬ (d' == k) = true := fun h => by
        have hsame : (k == k') = true := BEq.trans (BEq.symm h) hdk'
        rw [hk k' hk'] at hsame
        cases hsame
      have hkept : d' ∈ domain.eraseP (· == k) :=
        (List.mem_eraseP_of_neg (p := (· == k)) hne).mpr hd'
      exact List.any_eq_true.mpr ⟨d', hkept, hdk'⟩
    have ih : keys.length ≤ (domain.eraseP (· == k)).length := length_le hkeys hothers
    have hlength : (domain.eraseP (· == k)).length = domain.length - 1 :=
      List.length_eraseP_of_mem hd hdk
    have hpos := List.length_pos_of_mem hd
    rw [List.length_cons]
    omega

namespace Entries

variable [BEq κ]

theorem allDifferent_put {key : κ} {value : β} {entries : Entries κ β}
    (h : AllDifferent (keys entries)) : AllDifferent (keys (put key value entries)) := by
  rw [keys_put]
  by_cases hany : (keys entries).any (· == key) = true
  · rw [if_pos hany]
    exact h
  · rw [if_neg hany]
    refine List.pairwise_append.mpr ⟨h, List.pairwise_singleton _ _, fun k hk other hother => ?_⟩
    rw [List.mem_singleton.mp hother]
    exact Bool.eq_false_iff.mpr fun hsame => hany (List.any_eq_true.mpr ⟨k, hk, hsame⟩)

theorem eq_or_mem_keys_of_mem_put {key : κ} {value : β} {entries : Entries κ β} {entry : κ × β}
    (h : entry ∈ put key value entries) : entry.1 = key ∨ entry.1 ∈ keys entries := by
  have hkey : entry.1 ∈ keys (put key value entries) := List.mem_map_of_mem h
  rw [keys_put] at hkey
  split at hkey
  · exact .inr hkey
  · exact (List.mem_append.mp hkey).symm.imp_left List.mem_singleton.mp

/-- Entries whose keys are different and of a domain, and whose values are of a kind. -/
structure AreTidy (domain : List κ) (kind : β → Prop) (entries : Entries κ β) : Prop where
  different : AllDifferent entries.keys
  known : ∀ entry ∈ entries, domain.any (· == entry.1) = true
  values : ∀ entry ∈ entries, kind entry.2

theorem areTidy_nil {domain : List κ} {kind : β → Prop} :
    AreTidy domain kind ([] : Entries κ β) :=
  ⟨.nil, List.forall_mem_nil _, List.forall_mem_nil _⟩

theorem AreTidy.put {domain : List κ} {kind : β → Prop} {entries : Entries κ β} {k : κ} {v : β}
    (h : entries.AreTidy domain kind) (hk : domain.any (· == k) = true) (hv : kind v) :
    (entries.put k v).AreTidy domain kind where
  different := allDifferent_put h.different
  known entry hentry := by
    rcases eq_or_mem_keys_of_mem_put hentry with heq | hmem
    · exact heq ▸ hk
    · obtain ⟨old, hold, heq⟩ := List.mem_map.mp hmem
      exact heq ▸ h.known old hold
  values entry hentry := by
    rcases mem_of_mem_put hentry with heq | hmem
    · exact heq ▸ hv
    · exact h.values entry hmem

theorem areTidy_ofList {domain : List κ} {kind : β → Prop} {pairs : List (κ × β)}
    (h : ∀ pair ∈ pairs, domain.any (· == pair.1) = true ∧ kind pair.2) :
    (ofList pairs).AreTidy domain kind :=
  List.foldlRecOn (motive := fun entries : Entries κ β => entries.AreTidy domain kind)
    pairs _ areTidy_nil fun _ hentries pair hpair => hentries.put (h pair hpair).1 (h pair hpair).2

/-- Entries under some keys of a domain, in its order, are tidy. -/
theorem areTidy_of_sublist [ReflBEq κ] {domain used : List κ} {kind : β → Prop}
    {entries : Entries κ β} (hdomain : AllDifferent domain) (hused : used.Sublist domain)
    (h : List.Forall₂ (fun k entry => k = entry.1 ∧ kind entry.2) used entries) :
    entries.AreTidy domain kind where
  different := by
    have hkeys : used.map id = entries.keys := map_eq_of_forall₂ h fun k entry h => h.1
    rw [← hkeys, List.map_id]
    exact hdomain.sublist hused
  known entry hentry := by
    obtain ⟨k, hk, rfl, -⟩ := exists_mem_of_forall₂ h hentry
    exact List.any_eq_true.mpr ⟨entry.1, hused.subset hk, BEq.rfl⟩
  values entry hentry := by
    obtain ⟨k, -, -, hkind⟩ := exists_mem_of_forall₂ h hentry
    exact hkind

omit [BEq κ] in
/-- The values that some keys of a list have, under these keys. -/
theorem exists_sublist_of_filterMap (g : κ → Option β) : ∀ domain : List κ,
    ∃ used, used.Sublist domain ∧ List.Forall₂ (fun k entry => k = entry.1 ∧ g k = some entry.2)
      used (domain.filterMap fun k => (g k).map fun v => (k, v))
  | [] => ⟨[], .slnil, .nil⟩
  | k :: domain => by
    obtain ⟨used, hused, hall⟩ := exists_sublist_of_filterMap g domain
    rw [List.filterMap_cons]
    cases hk : g k with
    | none => exact ⟨used, hused.cons k, hall⟩
    | some v => exact ⟨k :: used, hused.cons_cons k, .cons ⟨rfl, hk⟩ hall⟩

end Entries

/-! ### Tidy grids -/

namespace Grid

variable [Key κ]

/-- A grid in whose branches keys are different and of their domain, and no branch below the root
is without values. -/
def IsTidy : (dims : List (List κ)) → Grid κ α dims → Prop
  | [], _ => True
  | domain :: dims, entries =>
    Entries.AreTidy domain (fun child => isBare dims child = false ∧ IsTidy dims child) entries

theorem isTidy_ofNested {view : Tensor.NestedView κ α} : ∀ {dims : List (List κ)} {depth : ℕ}
    {value : α} {grid : Grid κ α dims},
    Tensor.gridOfNested view depth dims value = .ok grid → IsTidy dims grid
  | [], _, _, _, _ => trivial
  | domain :: dims, depth, value, grid, h => by
    unfold Tensor.gridOfNested at h
    cases hentries : view.entries? value with
    | none =>
      rw [hentries] at h
      cases h
    | some entries =>
      simp only [hentries] at h
      obtain ⟨children, hchildren, h⟩ := bind_eq_ok.mp h
      cases h
      refine Entries.areTidy_ofList fun pair hpair => ?_
      obtain ⟨⟨k, v⟩, -, hstep⟩ := exists_of_mem_collect hchildren hpair
      obtain ⟨_, hcheck, hstep⟩ := bind_eq_ok.mp hstep
      obtain ⟨child, hchild, hstep⟩ := bind_eq_ok.mp hstep
      by_cases hbare : isBare dims child = true
      · rw [if_pos hbare] at hstep
        cases hstep
      · rw [if_neg hbare] at hstep
        cases hstep
        exact ⟨Tensor.checkKey_eq_ok.mp hcheck, Bool.eq_false_iff.mpr hbare, isTidy_ofNested hchild⟩

/-- A value is stored below every key of its tuple. -/
theorem isBare_store : ∀ {dims : List (List κ)} {keys : List κ} {value : α}
    {grid : Option (Grid κ α dims)}, keys.length = dims.length →
      isBare dims (store dims keys value grid) = false
  | [], [], _, _, _ => rfl
  | _ :: _, _ :: _, _, _, _ =>
    Bool.eq_false_iff.mpr fun hbare => Entries.put_ne_nil _ _ _ (List.isEmpty_iff.mp hbare)

theorem isTidy_store : ∀ {dims : List (List κ)} {keys : List κ} {value : α}
    {grid : Option (Grid κ α dims)}, Belong dims keys → (∀ g ∈ grid, IsTidy dims g) →
      IsTidy dims (store dims keys value grid)
  | [], [], _, _, _, _ => trivial
  | domain :: dims, k :: keys, value, grid, .cons hk hkeys, hgrid => by
    have hentries : IsTidy (domain :: dims) (grid.getD (empty domain dims)) := by
      cases grid with
      | none => exact Entries.areTidy_nil
      | some g => exact hgrid g rfl
    refine Entries.AreTidy.put hentries hk ⟨isBare_store hkeys.length_eq.symm, ?_⟩
    refine isTidy_store hkeys fun child hchild => ?_
    obtain ⟨key, hmem⟩ := Entries.exists_mem_of_find? hchild
    exact (hentries.values _ hmem).2

theorem isTidy_fill {σ ε : Type} {dims : List (List κ)}
    {provide : List κ → ExceptT ε (StateM σ) α} : ∀ {tuples : List (List κ)}
    {grid filled : Grid κ α dims} {before : σ}, (∀ keys ∈ tuples, Belong dims keys) →
      IsTidy dims grid → (runFrom (fill provide dims grid tuples) before).1 = .ok filled →
        IsTidy dims filled
  | [], grid, filled, before, _, hgrid, h => by
    cases h
    exact hgrid
  | keys :: tuples, grid, filled, before, hkeys, hgrid, h => by
    obtain ⟨hfirst, hrest⟩ := List.forall_mem_cons.mp hkeys
    rw [fill, List.foldlM_cons, runFrom_bind, runFrom_bind] at h
    rcases hvalue : runFrom (provide keys) before with ⟨e | value, after⟩
    · rw [hvalue] at h
      cases h
    · rw [hvalue] at h
      refine isTidy_fill hrest (isTidy_store hfirst fun g hg => ?_) h
      cases hg
      exact hgrid

variable [ReflBEq κ]

theorem belong_of_mem_product : ∀ {dims : List (List κ)} {keys : List κ},
    keys ∈ product dims → Belong dims keys
  | [], keys, h => by
    rw [List.mem_singleton.mp h]
    exact .nil
  | domain :: dims, keys, h => by
    obtain ⟨k, hk, htuple⟩ := List.mem_flatMap.mp h
    obtain ⟨rest, hrest, rfl⟩ := List.mem_map.mp htuple
    exact .cons (List.any_eq_true.mpr ⟨k, hk, BEq.rfl⟩) (belong_of_mem_product hrest)

theorem isTidy_generate {σ ε : Type} {dims : List (List κ)}
    {provide : List κ → ExceptT ε (StateM σ) α} {before : σ} {grid : Grid κ α dims}
    (h : (runFrom (generate provide dims) before).1 = .ok grid) : IsTidy dims grid := by
  cases dims with
  | nil => trivial
  | cons domain dims =>
    exact isTidy_fill (fun keys => belong_of_mem_product) Entries.areTidy_nil h

theorem areTidy_keep {γ : Type} {domain : List κ} {f : γ → Option β} {entries : Entries κ γ}
    {kept : Entries κ β} {kind : β → Prop} (hdomain : AllDifferent domain)
    (hf : ∀ entry ∈ entries, ∀ child, f entry.2 = some child → kind child)
    (h : narrow.keep domain f entries = some kept) :
    kept.isEmpty = false ∧ kept.AreTidy domain kind := by
  unfold narrow.keep at h
  obtain ⟨used, hused, hall⟩ :=
    Entries.exists_sublist_of_filterMap (fun k => (Entries.find? k entries).bind f) domain
  by_cases hempty : (domain.filterMap fun k =>
      ((Entries.find? k entries).bind f).map fun child => (k, child)).isEmpty = true
  · rw [if_pos hempty] at h
    cases h
  · rw [if_neg hempty] at h
    cases h
    refine ⟨Bool.eq_false_iff.mpr hempty, Entries.areTidy_of_sublist hdomain hused ?_⟩
    refine hall.imp fun k entry hentry => ⟨hentry.1, ?_⟩
    obtain ⟨child, hchild, hnarrowed⟩ := Option.bind_eq_some_iff.mp hentry.2
    obtain ⟨key, hmem⟩ := Entries.exists_mem_of_find? hchild
    exact hf _ hmem _ hnarrowed

theorem isTidy_narrow : ∀ {dims : List (List κ)} {choices : List (Option κ)} {grid : Grid κ α dims}
    {narrowed : Grid κ α (keptDimensions dims choices)}, (∀ domain ∈ dims, AllDifferent domain) →
    IsTidy dims grid → narrow dims choices grid = some narrowed →
    isBare (keptDimensions dims choices) narrowed = false ∧
      IsTidy (keptDimensions dims choices) narrowed
  | [], _, _, _, _, _, _ => ⟨rfl, trivial⟩
  | domain :: dims, some k :: choices, grid, narrowed, hdims, htidy, h => by
    obtain ⟨child, hchild, h⟩ := Option.bind_eq_some_iff.mp h
    obtain ⟨key, hmem⟩ := Entries.exists_mem_of_find? hchild
    have hchild : IsTidy dims child := (htidy.values _ hmem).2
    have ih := isTidy_narrow (List.forall_mem_cons.mp hdims).2 hchild h
    exact ih
  | domain :: dims, none :: choices, grid, narrowed, hdims, htidy, h => by
    obtain ⟨hdomain, hdims⟩ := List.forall_mem_cons.mp hdims
    exact areTidy_keep hdomain (fun entry hentry child hchild =>
      isTidy_narrow hdims (htidy.values entry hentry).2 hchild) h
  | domain :: dims, [], grid, narrowed, hdims, htidy, h => by
    obtain ⟨hdomain, hdims⟩ := List.forall_mem_cons.mp hdims
    exact areTidy_keep hdomain (fun entry hentry child hchild =>
      isTidy_narrow hdims (htidy.values entry hentry).2 hchild) h

end Grid

namespace Tensor

variable [Key κ]

/-! ### Tidy tensors -/

theorem allDifferent_of_hasRepeats : ∀ {keys : List κ}, hasRepeats keys = false → AllDifferent keys
  | [], _ => .nil
  | k :: keys, h => by
    obtain ⟨hk, hkeys⟩ := Bool.or_eq_false_iff.mp h
    refine List.pairwise_cons.mpr ⟨fun other hother => ?_, allDifferent_of_hasRepeats hkeys⟩
    refine Bool.eq_false_iff.mpr fun hsame => ?_
    have hcontains := List.contains_iff_exists_mem_beq.mpr ⟨other, hother, hsame⟩
    rw [hk] at hcontains
    cases hcontains

theorem allDifferent_of_checkDomains {wildcard : Option κ} : ∀ {index : ℕ} {dims : List (List κ)},
    checkDomains wildcard index dims = .ok () → ∀ domain ∈ dims, AllDifferent domain
  | _, [], _ => nofun
  | index, domain :: dims, h => by
    obtain ⟨_, hdomain, hdims⟩ := bind_eq_ok.mp h
    refine List.forall_mem_cons.mpr
      ⟨allDifferent_of_hasRepeats ?_, allDifferent_of_checkDomains hdims⟩
    refine Bool.eq_false_iff.mpr fun hrepeats => ?_
    cases hfind : domain.find? (!Key.usable ·) with
    | some k => simp [checkDomain, hfind] at hdomain
    | none => simp [checkDomain, hfind, hrepeats] at hdomain

theorem allDifferent_of_checkDimensions {wildcard : Option κ} {dims : List (List κ)}
    (h : checkDimensions dims wildcard = .ok ()) : ∀ domain ∈ dims, AllDifferent domain := by
  unfold checkDimensions at h
  split_ifs at h
  exact allDifferent_of_checkDomains h

/-- A tensor whose domains have different keys and whose grid is tidy. -/
structure IsTidy (t : Tensor κ δ α) : Prop where
  domains : ∀ domain ∈ t.dimensions, AllDifferent domain
  grid : t.grid.IsTidy t.dimensions

theorem isTidy_bareGrid {dims : List (List κ)} {bare : Grid κ α dims}
    (h : bareGrid? dims = some bare) : bare.IsTidy dims := by
  cases dims with
  | nil => cases h
  | cons domain dims =>
    cases h
    exact Entries.areTidy_nil

omit [Key κ] in
theorem mem_of_mem_keptDimensions : ∀ {dims : List (List κ)} {choices : List (Option κ)}
    {domain : List κ}, domain ∈ keptDimensions dims choices → domain ∈ dims
  | [], _, _, h => h
  | d :: dims, [], domain, h | d :: dims, none :: choices, domain, h => by
    rcases List.mem_cons.mp h with rfl | h
    · exact List.mem_cons_self
    · exact List.mem_cons_of_mem _ (mem_of_mem_keptDimensions h)
  | d :: dims, some k :: choices, domain, h => List.mem_cons_of_mem _ (mem_of_mem_keptDimensions h)

variable {t : Tensor κ δ α}

theorem isTidy_ofNested {view : NestedView κ α} {dims : List (List κ)} {values : α}
    {provider : Option δ} {wildcard : Option κ}
    (h : ofNested view dims values provider wildcard = .ok t) : t.IsTidy := by
  obtain ⟨_, hdims, h⟩ := bind_eq_ok.mp h
  obtain ⟨grid, hgrid, h⟩ := bind_eq_ok.mp h
  cases h
  exact ⟨allDifferent_of_checkDimensions hdims, Grid.isTidy_ofNested hgrid⟩

variable [ReflBEq κ]

theorem isTidy_generate {σ ε : Type} {refuse : TensorError κ → ε} {dims : List (List κ)}
    {provide : List κ → ExceptT ε (StateM σ) α} {provider : Option δ} {wildcard : Option κ}
    {before : σ}
    (h : (runFrom (generate refuse dims provide provider wildcard) before).1 = .ok t) :
    t.IsTidy := by
  unfold generate at h
  cases hdims : checkDimensions dims wildcard with
  | error e =>
    rw [hdims] at h
    cases h
  | ok _ =>
    rw [hdims] at h
    simp only [runFrom_bind] at h
    rcases hgrid : runFrom (Grid.generate provide dims) before with ⟨e | grid, after⟩
    · rw [hgrid] at h
      cases h
    · rw [hgrid] at h
      cases h
      have hdomains := allDifferent_of_checkDimensions hdims
      exact ⟨hdomains, Grid.isTidy_generate (congrArg Prod.fst hgrid)⟩

theorem IsTidy.subTensor {s : Tensor κ δ α} {selectors : List (Selector κ)} (ht : t.IsTidy)
    (h : t.subTensor selectors = .ok s) : s.IsTidy := by
  obtain ⟨choices, bare, -, hbare, rfl⟩ := subTensor_eq_ok h
  refine ⟨fun domain hdomain => ht.domains domain (mem_of_mem_keptDimensions hdomain), ?_⟩
  cases hnarrow : Grid.narrow t.dimensions choices t.grid with
  | none => exact isTidy_bareGrid hbare
  | some grid => exact (Grid.isTidy_narrow ht.domains ht.grid hnarrow).2

/-- **Every tensor stores its values tidily.** -/
theorem Reachable.isTidy (h : t.Reachable) : t.IsTidy := by
  induction h with
  | ofNested h => exact isTidy_ofNested h
  | generate h => exact isTidy_generate h
  | subTensor _ h ih => exact ih.subTensor h

end Tensor
end LinModel
