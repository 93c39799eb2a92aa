import Mathlib.Data.List.Forall2
import LinModel.Entries

/-!
# Results that may fail

When steps that may fail return, taken one after the other: a step after another (`bind_eq_ok`), the
same step for every item of a list (`mapM_eq_ok`), and the steps that have a result
(`collect_eq_ok`). What is collected is some item's result (`exists_of_mem_collect`). Whether they
return can be told step by step (`exists_bind_eq_ok_iff`, `exists_mapM_eq_ok_iff`).
If they fail, one of them does, and with that failure.

Key definitions: `FailsAfter`.
Key theorems: `bind_eq_ok`, `exists_bind_eq_ok_iff`, `mapError_eq_ok`, `mapM_eq_ok`,
`exists_mapM_eq_ok_iff`, `collect_eq_ok`, `exists_of_mem_collect`, `bind_eq_error`,
`mapError_eq_error`, `exists_of_mapM_eq_error`, `exists_of_collect_eq_error`, `FailsAfter.unique`,
`FailsAfter.exists_iff`.
-/
namespace LinModel

variable {ε ε' α β : Type}

@[simp] theorem ok_bind (a : α) (f : α → Except ε β) : (Except.ok a >>= f) = f a := rfl

@[simp] theorem error_bind (e : ε) (f : α → Except ε β) :
    (Except.error e >>= f) = Except.error e := rfl

@[simp] theorem throw_eq_error (e : ε) : (throw e : Except ε α) = Except.error e := rfl

@[simp] theorem ok_mapError (a : α) (g : ε → ε') : (Except.ok a).mapError g = Except.ok a := rfl

/-- Over the identity, a program that may fail is its result. -/
theorem exceptT_bind_id (x : Except ε α) (f : α → Except ε β) :
    ExceptT.bind (m := Id) x f = x.bind f := by
  cases x with
  | error e => rfl
  | ok a => rfl

theorem exceptT_map_id (x : Except ε α) (f : α → β) :
    ExceptT.bind (m := Id) x (fun a => Except.ok (f a)) = Except.map f x :=
  exceptT_bind_id x _

theorem exists_of_isOk {x : Except ε α} (h : x.isOk = true) : ∃ a, x = .ok a := by
  cases x with
  | ok a => exact ⟨a, rfl⟩
  | error e => cases h

theorem toOption_eq_some {x : Except ε α} {a : α} : x.toOption = some a ↔ x = .ok a := by
  cases x with
  | ok b => simp [Except.toOption]
  | error e => simp [Except.toOption]

theorem bind_eq_ok {x : Except ε α} {f : α → Except ε β} {b : β} :
    (x >>= f) = .ok b ↔ ∃ a, x = .ok a ∧ f a = .ok b := by
  cases x with
  | ok a => simp
  | error e => simp

/-- A step after another returns if both do. -/
theorem exists_bind_eq_ok_iff {x : Except ε α} {f : α → Except ε β} {returns : Prop}
    (hf : ∀ a, (∃ b, f a = .ok b) ↔ returns) :
    (∃ b, (x >>= f) = .ok b) ↔ (∃ a, x = .ok a) ∧ returns := by
  constructor
  · rintro ⟨b, h⟩
    obtain ⟨a, ha, hb⟩ := bind_eq_ok.mp h
    exact ⟨⟨a, ha⟩, (hf a).mp ⟨b, hb⟩⟩
  · rintro ⟨⟨a, ha⟩, hreturns⟩
    obtain ⟨b, hb⟩ := (hf a).mpr hreturns
    exact ⟨b, bind_eq_ok.mpr ⟨a, ha, hb⟩⟩

theorem exists_bind_pure_eq_ok_iff {x : Except ε α} {g : α → β} :
    (∃ b, (x >>= fun a => pure (g a)) = .ok b) ↔ ∃ a, x = .ok a := by
  cases x with
  | ok a => exact iff_of_true ⟨g a, rfl⟩ ⟨a, rfl⟩
  | error e => exact iff_of_false (by rintro ⟨b, ⟨⟩⟩) (by rintro ⟨a, ⟨⟩⟩)

theorem mapError_eq_ok {x : Except ε α} {g : ε → ε'} {a : α} :
    x.mapError g = .ok a ↔ x = .ok a := by
  cases x with
  | ok a => simp
  | error e => simp [Except.mapError]

/-- A step for every item returns what the step returns for each. -/
theorem mapM_eq_ok {f : α → Except ε β} : ∀ {l : List α} {l' : List β},
    l.mapM f = .ok l' ↔ List.Forall₂ (fun a b => f a = .ok b) l l'
  | [], l' => by
    rw [List.mapM_nil, List.forall₂_nil_left_iff]
    constructor
    · rintro ⟨⟩
      rfl
    · rintro rfl
      rfl
  | a :: l, l' => by
    rw [List.mapM_cons, List.forall₂_cons_left_iff, bind_eq_ok]
    constructor
    · rintro ⟨b, hb, h⟩
      obtain ⟨bs, hbs, h⟩ := bind_eq_ok.mp h
      cases h
      exact ⟨b, bs, hb, mapM_eq_ok.mp hbs, rfl⟩
    · rintro ⟨b, bs, hb, hbs, rfl⟩
      exact ⟨b, hb, bind_eq_ok.mpr ⟨bs, mapM_eq_ok.mpr hbs, rfl⟩⟩

/-- Steps with a result for the items that `keep` holds of, and none for the others. -/
theorem collect_eq_ok {f : α → Except ε (Option β)} {keep : α → Bool} {g : α → β} {ok : α → Prop}
    (hf : ∀ a r, f a = .ok r ↔ ok a ∧ r = if keep a then some (g a) else none) :
    ∀ {l : List α} {l' : List β},
      collect f l = .ok l' ↔ (∀ a ∈ l, ok a) ∧ l' = (l.filter keep).map g
  | [], l' => by
    simp only [collect, List.not_mem_nil, false_implies, implies_true, true_and, List.filter_nil,
      List.map_nil]
    constructor
    · rintro ⟨⟩
      rfl
    · rintro rfl
      rfl
  | a :: l, l' => by
    have ih : ∀ {l' : List β}, collect f l = .ok l' ↔
        (∀ a ∈ l, ok a) ∧ l' = (l.filter keep).map g := collect_eq_ok hf
    rw [collect, bind_eq_ok]
    constructor
    · rintro ⟨r, hr, h⟩
      obtain ⟨ha, rfl⟩ := (hf a r).mp hr
      by_cases hk : keep a = true
      · rw [if_pos hk] at h
        obtain ⟨bs, hbs, h⟩ := bind_eq_ok.mp h
        obtain ⟨hl, rfl⟩ := ih.mp hbs
        cases h
        exact ⟨List.forall_mem_cons.mpr ⟨ha, hl⟩, by simp [hk]⟩
      · rw [if_neg hk] at h
        obtain ⟨hl, rfl⟩ := ih.mp h
        exact ⟨List.forall_mem_cons.mpr ⟨ha, hl⟩, by simp [hk]⟩
    · rintro ⟨hal, rfl⟩
      obtain ⟨ha, hl⟩ := List.forall_mem_cons.mp hal
      refine ⟨_, (hf a _).mpr ⟨ha, rfl⟩, ?_⟩
      by_cases hk : keep a = true
      · rw [if_pos hk]
        exact bind_eq_ok.mpr ⟨_, ih.mpr ⟨hl, rfl⟩, by simp [hk]; rfl⟩
      · rw [if_neg hk]
        exact ih.mpr ⟨hl, by simp [hk]⟩

/-- A result that is collected is the one of some item. -/
theorem exists_of_mem_collect {f : α → Except ε (Option β)} {b : β} :
    ∀ {l : List α} {l' : List β}, collect f l = .ok l' → b ∈ l' → ∃ a ∈ l, f a = .ok (some b)
  | [], l', h, hb => by
    cases h
    cases hb
  | a :: l, l', h, hb => by
    obtain ⟨r, hr, h⟩ := bind_eq_ok.mp h
    cases r with
    | none =>
      obtain ⟨a', ha', h'⟩ := exists_of_mem_collect h hb
      exact ⟨a', List.mem_cons_of_mem _ ha', h'⟩
    | some c =>
      obtain ⟨rest, hrest, h⟩ := bind_eq_ok.mp h
      cases h
      rcases List.mem_cons.mp hb with rfl | hb
      · exact ⟨a, List.mem_cons_self, hr⟩
      · obtain ⟨a', ha', h'⟩ := exists_of_mem_collect hrest hb
        exact ⟨a', List.mem_cons_of_mem _ ha', h'⟩

/-! ### Failures -/

theorem bind_eq_error {x : Except ε α} {f : α → Except ε β} {e : ε} :
    (x >>= f) = .error e ↔ x = .error e ∨ ∃ a, x = .ok a ∧ f a = .error e := by
  cases x with
  | ok a => simp
  | error e' => simp

theorem mapError_eq_error {x : Except ε α} {g : ε → ε'} {e' : ε'} :
    x.mapError g = .error e' ↔ ∃ e, x = .error e ∧ g e = e' := by
  cases x with
  | ok a => simp
  | error e => simp [Except.mapError]

/-- If a step fails for the items of a list, it fails for one of them. -/
theorem exists_of_mapM_eq_error {f : α → Except ε β} {e : ε} : ∀ {l : List α},
    l.mapM f = .error e → ∃ a ∈ l, f a = .error e
  | [], h => by
    rw [List.mapM_nil] at h
    cases h
  | a :: l, h => by
    rw [List.mapM_cons, bind_eq_error] at h
    rcases h with h | ⟨b, -, h⟩
    · exact ⟨a, List.mem_cons_self, h⟩
    · rcases bind_eq_error.mp h with h | ⟨bs, -, h⟩
      · obtain ⟨a', ha', h'⟩ := exists_of_mapM_eq_error h
        exact ⟨a', List.mem_cons_of_mem _ ha', h'⟩
      · cases h

/-- A fold over items of which some cannot be taken fails at such an item. -/
theorem foldlM_fails {f : β → α → Except ε β} {bad : α → Prop} {fail : α → ε}
    (hbad : ∀ b a, bad a → f b a = .error (fail a)) (hok : ∀ b a, ¬bad a → ∃ b', f b a = .ok b') :
    ∀ {l : List α} {b : β}, (∃ a ∈ l, bad a) →
      ∃ a ∈ l, bad a ∧ l.foldlM f b = .error (fail a)
  | a :: l, b, h => by
    rw [List.foldlM_cons]
    by_cases ha : bad a
    · rw [hbad b a ha]
      exact ⟨a, List.mem_cons_self, ha, rfl⟩
    · obtain ⟨b', hb'⟩ := hok b a ha
      have hl : ∃ a ∈ l, bad a := by simpa [ha] using h
      obtain ⟨a', ha', hbad', hfails⟩ := foldlM_fails hbad hok hl
      rw [hb', ok_bind]
      exact ⟨a', List.mem_cons_of_mem _ ha', hbad', hfails⟩

theorem exists_of_collect_eq_error {f : α → Except ε (Option β)} {e : ε} : ∀ {l : List α},
    collect f l = .error e → ∃ a ∈ l, f a = .error e
  | [], h => by cases h
  | a :: l, h => by
    rw [collect, bind_eq_error] at h
    rcases h with h | ⟨b, -, h⟩
    · exact ⟨a, List.mem_cons_self, h⟩
    · have hrest : collect f l = .error e := by
        cases b with
        | none => exact h
        | some b =>
          rcases bind_eq_error.mp h with h | ⟨bs, -, h⟩
          · exact h
          · cases h
      obtain ⟨a', ha', h'⟩ := exists_of_collect_eq_error hrest
      exact ⟨a', List.mem_cons_of_mem _ ha', h'⟩

/-- A step that may fail returns for the first items of a list, and fails for the next one. -/
inductive FailsAfter (f : α → Except ε β) : List β → ε → List α → Prop
  | here {a : α} {e : ε} (h : f a = .error e) (rest : List α) : FailsAfter f [] e (a :: rest)
  | later {a : α} {b : β} {bs : List β} {e : ε} {rest : List α} (h : f a = .ok b)
      (hrest : FailsAfter f bs e rest) : FailsAfter f (b :: bs) e (a :: rest)

namespace FailsAfter

variable {f : α → Except ε β} {bs bs' : List β} {e e' : ε} {l : List α}

theorem exists_mem (h : FailsAfter f bs e l) : ∃ a ∈ l, f a = .error e := by
  induction h with
  | here h rest => exact ⟨_, List.mem_cons_self, h⟩
  | later _ _ ih =>
    obtain ⟨a, ha, h⟩ := ih
    exact ⟨a, List.mem_cons_of_mem _ ha, h⟩

/-- A list fails at one place only. -/
theorem unique (h : FailsAfter f bs e l) (h' : FailsAfter f bs' e' l) : bs = bs' ∧ e = e' := by
  induction h generalizing bs' with
  | here h rest =>
    cases h' with
    | here h' =>
      cases h.symm.trans h'
      exact ⟨rfl, rfl⟩
    | later h' => cases h.symm.trans h'
  | later h _ ih =>
    cases h' with
    | here h' => cases h.symm.trans h'
    | later h' hrest' =>
      cases h.symm.trans h'
      obtain ⟨rfl, rfl⟩ := ih hrest'
      exact ⟨rfl, rfl⟩

/-- A list fails somewhere if the step fails for some item. -/
theorem exists_iff : (∃ bs e, FailsAfter f bs e l) ↔ ∃ a ∈ l, ∃ e, f a = .error e := by
  constructor
  · rintro ⟨bs, e, h⟩
    obtain ⟨a, ha, h⟩ := h.exists_mem
    exact ⟨a, ha, e, h⟩
  · rintro ⟨a, ha, e, h⟩
    induction l with
    | nil => cases ha
    | cons b l ih =>
      cases hb : f b with
      | error e' => exact ⟨[], e', .here hb l⟩
      | ok r =>
        -- the step returns for the first item, so it fails for a later one
        have hmem : a ∈ l := by
          rcases List.mem_cons.mp ha with rfl | hmem
          · cases hb.symm.trans h
          · exact hmem
        obtain ⟨bs, e', hrest⟩ := ih hmem
        exact ⟨r :: bs, e', .later hb hrest⟩

end FailsAfter

/-! ### Related lists -/

/-- A list of which every item is related to something is related to a list. -/
theorem exists_forall₂ {R : α → β → Prop} : ∀ {l : List α}, (∀ a ∈ l, ∃ b, R a b) →
    ∃ l', List.Forall₂ R l l'
  | [], _ => ⟨[], .nil⟩
  | a :: l, h => by
    obtain ⟨⟨b, hb⟩, hl⟩ := List.forall_mem_cons.mp h
    obtain ⟨l', hl'⟩ := exists_forall₂ hl
    exact ⟨b :: l', .cons hb hl'⟩

theorem exists_mem_of_forall₂ {R : α → β → Prop} {l : List α} {l' : List β}
    (h : List.Forall₂ R l l') {b : β} (hb : b ∈ l') : ∃ a ∈ l, R a b := by
  induction h with
  | nil => cases hb
  | cons hab _ ih =>
    rcases List.mem_cons.mp hb with rfl | hb
    · exact ⟨_, List.mem_cons_self, hab⟩
    · obtain ⟨a, ha, h⟩ := ih hb
      exact ⟨a, List.mem_cons_of_mem _ ha, h⟩

/-- A step for every item returns if it does for each. -/
theorem exists_mapM_eq_ok_iff {f : α → Except ε β} {l : List α} :
    (∃ l', l.mapM f = .ok l') ↔ ∀ a ∈ l, ∃ b, f a = .ok b := by
  simp only [mapM_eq_ok]
  constructor
  · rintro ⟨l', h⟩ a ha
    obtain ⟨b, -, hb⟩ := exists_mem_of_forall₂ h.flip ha
    exact ⟨b, hb⟩
  · exact exists_forall₂

theorem map_eq_of_forall₂ {R : α → β → Prop} {γ : Type} {f : α → γ} {g : β → γ} {l : List α}
    {l' : List β} (h : List.Forall₂ R l l') (hfg : ∀ a b, R a b → f a = g b) :
    l.map f = l'.map g := by
  induction h with
  | nil => rfl
  | cons hab _ ih => rw [List.map_cons, List.map_cons, hfg _ _ hab, ih]

/-- What a list is filtered to, if every item has a result. -/
theorem filterMap_eq_of_forall₂ {f : α → Option β} {l : List α} {l' : List β}
    (h : List.Forall₂ (fun a b => f a = some b) l l') : l.filterMap f = l' := by
  induction h with
  | nil => rfl
  | cons hab _ ih => rw [List.filterMap_cons_some hab, ih]

/-- What holds of all items of a list holds of all related ones. -/
theorem forall_mem_congr {R : α → β → Prop} {p : α → Prop} {q : β → Prop} {l : List α}
    {l' : List β} (h : List.Forall₂ R l l') (hpq : ∀ a b, R a b → (p a ↔ q b)) :
    (∀ a ∈ l, p a) ↔ ∀ b ∈ l', q b := by
  induction h with
  | nil => exact ⟨nofun, nofun⟩
  | cons hab _ ih =>
    rw [List.forall_mem_cons, List.forall_mem_cons]
    exact and_congr (hpq _ _ hab) ih

end LinModel
