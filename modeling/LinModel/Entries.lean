/-!
# Entries in insertion order

A list of keys with values in which a key keeps the place, and the form, of its first insertion
and takes the value of its last. Keys are compared by `==`, which need not be identity.

Key definitions: `Entries`, `Entries.find?`, `Entries.put`, `Entries.ofList`, `collect`.
Key theorems: `Entries.keys_put`, `Entries.ofList_of_pairwise`, `Entries.length_ofList_eq_iff`,
`Entries.find?_ofList`.
-/
namespace LinModel

/-- Keys with values, in the order in which the keys were first inserted. -/
abbrev Entries (α β : Type) := List (α × β)

namespace Entries

variable {α β γ : Type} [BEq α]

/-- The value of a key. -/
def find? (key : α) : Entries α β → Option β
  | [] => none
  | (k, v) :: rest => if k == key then some v else find? key rest

/-- Gives a key a value: in its old place, or at the end. -/
def put (key : α) (value : β) : Entries α β → Entries α β
  | [] => [(key, value)]
  | (k, v) :: rest => if k == key then (k, value) :: rest else (k, v) :: put key value rest

/-- Inserts pairs from left to right. -/
def ofList (pairs : List (α × β)) : Entries α β :=
  pairs.foldl (fun entries (k, v) => entries.put k v) []

/-- The keys, in order. -/
def keys (entries : Entries α β) : List α := entries.map Prod.fst

/-- Whether a key is present. -/
def has (key : α) (entries : Entries α β) : Bool := (entries.find? key).isSome

/-- Each value replaced, keys and order kept. -/
def mapValues (f : β → γ) (entries : Entries α β) : Entries α γ :=
  entries.map fun (k, v) => (k, f v)

@[simp] theorem find?_nil (key : α) : find? key ([] : Entries α β) = none := rfl

theorem find?_cons (key k : α) (v : β) (rest : Entries α β) :
    find? key ((k, v) :: rest) = if k == key then some v else find? key rest := rfl

theorem put_cons (key k : α) (value v : β) (rest : Entries α β) :
    put key value ((k, v) :: rest)
      = if k == key then (k, value) :: rest else (k, v) :: put key value rest := rfl

omit [BEq α] in
@[simp] theorem keys_nil : keys ([] : Entries α β) = [] := rfl

omit [BEq α] in
@[simp] theorem keys_cons (k : α) (v : β) (rest : Entries α β) :
    keys ((k, v) :: rest) = k :: keys rest := rfl

omit [BEq α] in
@[simp] theorem keys_mapValues (f : β → γ) (entries : Entries α β) :
    keys (entries.mapValues f) = keys entries := by
  simp [keys, mapValues, Function.comp_def]

/-- Putting a key adds no other key. -/
theorem mem_keys_put [LawfulBEq α] {key : α} {value : β} {other : α} :
    ∀ {entries : Entries α β}, other ∈ keys (put key value entries) ↔
      other = key ∨ other ∈ keys entries
  | [] => by simp [put]
  | (k, v) :: rest => by
    by_cases h : k == key
    · have : k = key := by simpa using h
      subst this
      simp [put_cons]
    · have ih : other ∈ keys (put key value rest) ↔ other = key ∨ other ∈ keys rest := mem_keys_put
      simp only [put_cons, h, Bool.false_eq_true, ↓reduceIte, keys_cons, List.mem_cons, ih]
      exact or_left_comm

/-- Putting a key repeats none. -/
theorem nodup_keys_put [LawfulBEq α] {key : α} {value : β} :
    ∀ {entries : Entries α β}, (keys entries).Nodup → (keys (put key value entries)).Nodup
  | [], _ => by simp [put]
  | (k, v) :: rest, hn => by
    obtain ⟨hk, hrest⟩ := List.nodup_cons.mp hn
    by_cases h : k == key
    · simpa [put_cons, h] using hn
    · simp only [put_cons, h, Bool.false_eq_true, ↓reduceIte, keys_cons, List.nodup_cons]
      refine ⟨fun hm => ?_, nodup_keys_put hrest⟩
      rcases mem_keys_put.mp hm with rfl | hm
      · simp at h
      · exact hk hm

/-- The keys after a put: one more at the end, if the key was not there in any form. -/
theorem keys_put (key : α) (value : β) : ∀ entries : Entries α β,
    keys (put key value entries)
      = if (keys entries).any (· == key) then keys entries else keys entries ++ [key]
  | [] => rfl
  | (k, v) :: rest => by
    rw [put_cons, keys_cons, List.any_cons]
    by_cases hk : (k == key) = true
    · rw [if_pos hk, hk, Bool.true_or, if_pos rfl, keys_cons]
    · rw [if_neg hk, Bool.eq_false_iff.mpr hk, Bool.false_or, keys_cons, keys_put key value rest]
      split <;> rfl

/-- What stands among the entries after a put is the new entry or an old one. -/
theorem mem_of_mem_put {key : α} {value : β} {entry : α × β} :
    ∀ {entries : Entries α β}, entry ∈ put key value entries →
      entry.2 = value ∨ entry ∈ entries
  | [], h => by simp_all [put]
  | (k, v) :: rest, h => by
    rw [put_cons] at h
    split at h
    · rcases List.mem_cons.mp h with rfl | h
      · exact .inl rfl
      · exact .inr (List.mem_cons_of_mem _ h)
    · rcases List.mem_cons.mp h with rfl | h
      · exact .inr List.mem_cons_self
      · exact (mem_of_mem_put h).imp_right (List.mem_cons_of_mem _)

/-- What is found is the value of an entry. -/
theorem exists_mem_of_find? {key : α} {value : β} :
    ∀ {entries : Entries α β}, find? key entries = some value → ∃ k, (k, value) ∈ entries
  | (k, v) :: rest, h => by
    rw [find?_cons] at h
    split at h
    · cases h
      exact ⟨k, List.mem_cons_self⟩
    · obtain ⟨k', hk'⟩ := exists_mem_of_find? h
      exact ⟨k', List.mem_cons_of_mem _ hk'⟩

/-- Of keys that are all different each is found with its value. -/
theorem find?_eq_some_of_mem [LawfulBEq α] {key : α} {value : β} :
    ∀ {entries : Entries α β}, (keys entries).Nodup → (key, value) ∈ entries →
      find? key entries = some value
  | (k, v) :: rest, hn, h => by
    obtain ⟨hk, hrest⟩ := List.nodup_cons.mp hn
    rw [find?_cons]
    rcases List.mem_cons.mp h with h | h
    · cases h
      simp
    · have hkey : key ∈ keys rest := List.mem_map_of_mem (f := Prod.fst) h
      have hne : k ≠ key := fun heq => hk (heq ▸ hkey)
      rw [if_neg (by simpa using hne)]
      exact find?_eq_some_of_mem hrest h

/-- A key that is the same as none of the keys is not found. -/
theorem find?_eq_none_of_forall {key : α} : ∀ {entries : Entries α β},
    (∀ k ∈ keys entries, (k == key) = false) → find? key entries = none
  | [], _ => rfl
  | (k, v) :: rest, h => by
    obtain ⟨hkey, hrest⟩ := List.forall_mem_cons.mp h
    rw [find?_cons, if_neg (Bool.eq_false_iff.mp hkey), find?_eq_none_of_forall hrest]

/-- A key that is not there is not found. -/
theorem find?_eq_none_of_not_mem [LawfulBEq α] {key : α} {entries : Entries α β}
    (h : key ∉ keys entries) : find? key entries = none :=
  find?_eq_none_of_forall fun _ hk => beq_false_of_ne fun heq => h (heq ▸ hk)

/-- The keys that are there are found. -/
theorem exists_find?_iff [LawfulBEq α] {key : α} {entries : Entries α β} :
    (∃ value, find? key entries = some value) ↔ key ∈ keys entries := by
  constructor
  · rintro ⟨value, h⟩
    refine Classical.byContradiction fun hkey => ?_
    rw [find?_eq_none_of_not_mem hkey] at h
    cases h
  · intro h
    induction entries with
    | nil => cases h
    | cons entry rest ih =>
      obtain ⟨k, v⟩ := entry
      rw [find?_cons]
      by_cases hk : k == key
      · exact ⟨v, if_pos hk⟩
      · have hne : key ≠ k := fun heq => hk (by simp [heq])
        rw [if_neg hk]
        exact ih ((List.mem_cons.mp h).resolve_left hne)

theorem put_ne_nil (key : α) (value : β) : ∀ entries : Entries α β, put key value entries ≠ []
  | [] => nofun
  | (k, v) :: rest => by
    rw [put_cons]
    split <;> nofun

/-- Only no pairs give no entries. -/
theorem ofList_eq_nil_iff {pairs : List (α × β)} : ofList pairs = [] ↔ pairs = [] := by
  have hfold : ∀ (pairs : List (α × β)) (entries : Entries α β), entries ≠ [] →
      pairs.foldl (fun entries (k, v) => entries.put k v) entries ≠ [] := by
    intro pairs
    induction pairs with
    | nil => exact fun _ h => h
    | cons pair pairs ih => exact fun entries _ => ih _ (put_ne_nil _ _ entries)
  cases pairs with
  | nil => exact ⟨fun _ => rfl, fun _ => rfl⟩
  | cons pair pairs => exact ⟨fun h => absurd h (hfold pairs _ (put_ne_nil _ _ [])), nofun⟩

/-- A key that is not found is put behind the others. -/
theorem put_of_find?_none {key : α} (value : β) : ∀ {entries : Entries α β},
    find? key entries = none → put key value entries = entries ++ [(key, value)]
  | [], _ => rfl
  | (k, v) :: rest, h => by
    rw [find?_cons] at h
    by_cases hk : (k == key) = true
    · rw [if_pos hk] at h
      cases h
    · rw [if_neg hk] at h
      rw [put_cons, if_neg hk, put_of_find?_none value h, List.cons_append]

/-- A new key goes to the end. -/
theorem put_of_not_mem [LawfulBEq α] {key : α} (value : β) {entries : Entries α β}
    (h : key ∉ keys entries) : put key value entries = entries ++ [(key, value)] :=
  put_of_find?_none value (find?_eq_none_of_not_mem h)

/-- Pairs of which no two keys are the same are entries as they are. -/
theorem ofList_of_pairwise {pairs : List (α × β)}
    (h : (keys pairs).Pairwise fun k k' => (k == k') = false) : ofList pairs = pairs := by
  have hfold : ∀ (pairs : List (α × β)) (entries : Entries α β),
      (keys (entries ++ pairs)).Pairwise (fun k k' => (k == k') = false) →
        pairs.foldl (fun entries (k, v) => entries.put k v) entries = entries ++ pairs := by
    intro pairs
    induction pairs with
    | nil => exact fun entries _ => (List.append_nil _).symm
    | cons pair pairs ih =>
      intro entries hn
      obtain ⟨k, v⟩ := pair
      have hnew : find? k entries = none := by
        rw [keys, List.map_append, List.pairwise_append] at hn
        exact find?_eq_none_of_forall fun key hkey => hn.2.2 key hkey k List.mem_cons_self
      have hstep : (entries ++ [(k, v)]) ++ pairs = entries ++ (k, v) :: pairs := by simp
      have hfold := ih (entries ++ [(k, v)]) (by rwa [hstep])
      rw [hstep] at hfold
      rw [List.foldl_cons]
      simp only [put_of_find?_none v hnew]
      exact hfold
  exact hfold pairs [] h

/-- Pairs with different keys are entries as they are. -/
theorem ofList_of_nodup [LawfulBEq α] {pairs : List (α × β)} (h : (keys pairs).Nodup) :
    ofList pairs = pairs :=
  ofList_of_pairwise (h.imp fun hne => beq_false_of_ne hne)

theorem length_put_of_mem [LawfulBEq α] {key : α} (value : β) :
    ∀ {entries : Entries α β}, key ∈ keys entries → (put key value entries).length = entries.length
  | (k, v) :: rest, h => by
    rw [put_cons]
    by_cases hk : k == key
    · rw [if_pos hk, List.length_cons, List.length_cons]
    · have hne : key ≠ k := fun heq => hk (by simp [heq])
      have hrest : key ∈ keys rest := (List.mem_cons.mp h).resolve_left hne
      rw [if_neg hk, List.length_cons, List.length_cons, length_put_of_mem value hrest]

/-- Every pair that is inserted adds one entry at most, and only if its key is new. -/
theorem length_foldl_put [LawfulBEq α] : ∀ (pairs : List (α × β)) (entries : Entries α β),
    (pairs.foldl (fun entries pair => entries.put pair.1 pair.2) entries).length
        ≤ entries.length + pairs.length ∧
      ((pairs.foldl (fun entries pair => entries.put pair.1 pair.2) entries).length
          = entries.length + pairs.length →
        (∀ k ∈ keys pairs, k ∉ keys entries) ∧ (keys pairs).Nodup)
  | [], entries => ⟨Nat.le_refl _, fun _ => ⟨nofun, List.nodup_nil⟩⟩
  | (k, v) :: pairs, entries => by
    obtain ⟨hle, hnew⟩ := length_foldl_put pairs (entries.put k v)
    simp only [List.foldl_cons, List.length_cons]
    by_cases hk : k ∈ keys entries
    · have hlength := length_put_of_mem v hk
      exact ⟨by omega, by omega⟩
    · have hput := put_of_not_mem v hk
      have hlength : (entries.put k v).length = entries.length + 1 := by simp [hput]
      refine ⟨by omega, fun h => ?_⟩
      obtain ⟨hdisjoint, hnodup⟩ := hnew (by omega)
      have hfresh : ∀ k' ∈ keys pairs, k' ≠ k ∧ k' ∉ keys entries := by
        intro k' hk'
        have hmem := hdisjoint k' hk'
        rw [mem_keys_put, not_or] at hmem
        exact hmem
      refine ⟨fun k' hk' => ?_, List.nodup_cons.mpr ⟨fun hmem => (hfresh k hmem).1 rfl, hnodup⟩⟩
      rcases List.mem_cons.mp hk' with rfl | hk'
      · exact hk
      · exact (hfresh k' hk').2

/-- No pair is lost if their keys are all different, and only then. -/
theorem length_ofList_eq_iff [LawfulBEq α] {pairs : List (α × β)} :
    (ofList pairs).length = pairs.length ↔ (keys pairs).Nodup := by
  constructor
  · intro h
    have hfold := (length_foldl_put pairs ([] : Entries α β)).2
    rw [List.length_nil, Nat.zero_add] at hfold
    exact (hfold h).2
  · intro h
    rw [ofList_of_nodup h]

/-- A key that was just put is found with its value. -/
theorem find?_put_self [ReflBEq α] (key : α) (value : β) :
    ∀ entries : Entries α β, find? key (put key value entries) = some value
  | [] => by simp [put, find?]
  | (k, v) :: rest => by
    by_cases h : k == key
    · simp [put_cons, find?_cons, h]
    · simp [put_cons, find?_cons, h, find?_put_self key value rest]

/-- Other keys keep their values. -/
theorem find?_put_of_ne [LawfulBEq α] {key other : α} (h : key ≠ other) (value : β) :
    ∀ entries : Entries α β, find? other (put key value entries) = find? other entries
  | [] => by simp [put, find?, h]
  | (k, v) :: rest => by
    by_cases hk : k == key
    · have : k = key := by simpa using hk
      subst this
      simp [put_cons, find?_cons, h]
    · simp [put_cons, find?_cons, hk, find?_put_of_ne h value rest]

theorem find?_append (key : α) (after : Entries α β) : ∀ entries : Entries α β,
    find? key (entries ++ after) = (find? key entries).or (find? key after)
  | [] => rfl
  | (k, v) :: rest => by
    rw [List.cons_append, find?_cons, find?_cons, find?_append key after rest]
    by_cases h : k == key
    · rw [if_pos h, if_pos h, Option.some_or]
    · rw [if_neg h, if_neg h]

/-- The last pair with a key gives it its value. -/
theorem find?_ofList [LawfulBEq α] (key : α) (pairs : List (α × β)) :
    find? key (ofList pairs) = find? key pairs.reverse := by
  have hfold : ∀ (pairs : List (α × β)) (entries : Entries α β),
      find? key (pairs.foldl (fun entries (k, v) => entries.put k v) entries)
        = (find? key pairs.reverse).or (find? key entries) := by
    intro pairs
    induction pairs with
    | nil => exact fun entries => rfl
    | cons pair pairs ih =>
      intro entries
      obtain ⟨k, v⟩ := pair
      rw [List.foldl_cons, ih, List.reverse_cons, find?_append, Option.or_assoc]
      refine congrArg _ ?_
      by_cases h : k = key
      · subst h
        rw [find?_put_self, find?_cons, if_pos (beq_self_eq_true k), Option.some_or]
      · rw [find?_put_of_ne h, find?_cons, if_neg (by simpa using h), find?_nil, Option.none_or]
  rw [ofList, hfold, find?_nil, Option.or_none]

/-- The keys of pairs are found among the entries made of these. -/
theorem exists_find?_ofList_iff [LawfulBEq α] {key : α} {pairs : List (α × β)} :
    (∃ value, find? key (ofList pairs) = some value) ↔ key ∈ keys pairs := by
  rw [find?_ofList, exists_find?_iff, keys, List.map_reverse, List.mem_reverse]
  rfl

/-- What is found among pairs that are made of the items of a list. -/
theorem find?_map (key : α) (f : γ → α) (g : γ → β) : ∀ l : List γ,
    find? key (l.map fun c => (f c, g c)) = (l.find? fun c => f c == key).map g
  | [] => rfl
  | c :: l => by
    rw [List.map_cons, find?_cons, List.find?_cons, find?_map key f g l]
    cases f c == key with
    | true => rfl
    | false => rfl

end Entries

/-- The results of the steps that have one, in order. -/
def collect {m : Type → Type} [Monad m] {α β : Type} (f : α → m (Option β)) : List α → m (List β)
  | [] => pure []
  | a :: rest => do
    match ← f a with
    | some b => return b :: (← collect f rest)
    | none => collect f rest

end LinModel
