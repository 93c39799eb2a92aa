import LinModel.Proofs.Tensor.Filling

/-!
# Dimensions that are accepted

A tensor is made over at least one dimension. The keys of each are usable and different, and a
wildcard is none of them. These checks accept nothing else (`Tensor.checkDimensions_eq_ok_iff`), and
whoever selects from a tensor keeps some of its dimensions, so all tensors that can be got have
dimensions that they accept (`Tensor.Reachable.areProper`).

Key definitions: `Tensor.AreProper`.
Key theorems: `Tensor.checkDimensions_eq_ok_iff`, `Tensor.Reachable.areProper`.
-/
namespace LinModel.Tensor

variable {κ δ α : Type} [Key κ]

/-- At least one dimension, each with different usable keys, of which none is the wildcard. -/
structure AreProper (wildcard : Option κ) (dims : List (List κ)) : Prop where
  nonempty : dims ≠ []
  different : ∀ domain ∈ dims, AllDifferent domain
  usable : ∀ domain ∈ dims, ∀ k ∈ domain, Key.usable k = true
  apart : ∀ domain ∈ dims, IsApart wildcard domain

variable {wildcard : Option κ} {dims : List (List κ)} {domain : List κ} {index : ℕ}

/-- A domain that is accepted has usable keys, and the wildcard is none of them. -/
theorem of_checkDomain (h : checkDomain wildcard index domain = .ok ()) :
    (∀ k ∈ domain, Key.usable k = true) ∧ IsApart wildcard domain := by
  unfold checkDomain at h
  cases hfind : domain.find? (!Key.usable ·) with
  | some k => simp [hfind] at h
  | none =>
    have husable : ∀ k ∈ domain, Key.usable k = true := by simpa using hfind
    rw [hfind] at h
    refine ⟨husable, ?_⟩
    rintro w rfl
    by_cases hrepeats : hasRepeats domain = true
    · simp [hrepeats] at h
    · by_cases hw : Key.usable w = true
      · by_cases hcontains : domain.contains w = true
        · simp [hrepeats, hw, hcontains] at h
        · exact ⟨hw, Bool.eq_false_iff.mpr hcontains⟩
      · simp [hrepeats, hw] at h

theorem of_checkDomains : ∀ {dims : List (List κ)} {index : ℕ},
    checkDomains wildcard index dims = .ok () →
      ∀ domain ∈ dims, (∀ k ∈ domain, Key.usable k = true) ∧ IsApart wildcard domain
  | [], _, _ => List.forall_mem_nil _
  | domain :: dims, index, h => by
    obtain ⟨_, hfirst, hrest⟩ := bind_eq_ok.mp h
    exact List.forall_mem_cons.mpr ⟨of_checkDomain hfirst, of_checkDomains hrest⟩

/-- **The checks accept proper dimensions and no others.** -/
theorem checkDimensions_eq_ok_iff : checkDimensions dims wildcard = .ok () ↔
    AreProper wildcard dims := by
  constructor
  · intro h
    have hdifferent := allDifferent_of_checkDimensions h
    unfold checkDimensions at h
    by_cases hnil : dims = []
    · simp [hnil] at h
    · have hdomains : checkDomains wildcard 0 dims = .ok () := by
        simpa [hnil] using h
      have hparts := of_checkDomains hdomains
      exact ⟨hnil, hdifferent, fun domain hmem => (hparts domain hmem).1,
        fun domain hmem => (hparts domain hmem).2⟩
  · intro h
    exact checkDimensions_eq_ok h.nonempty
      (fun domain hmem => ⟨h.different domain hmem, h.usable domain hmem⟩) h.apart

theorem AreProper.withoutWildcard (h : AreProper wildcard dims) : AreProper none dims :=
  ⟨h.nonempty, h.different, h.usable, fun domain _ => isApart_none domain⟩

variable {t s : Tensor κ δ α}

theorem areProper_of_ofNested {view : NestedView κ α} {values : α} {provider : Option δ}
    (h : ofNested view dims values provider wildcard = .ok t) :
    AreProper t.wildcard t.dimensions := by
  obtain ⟨_, hcheck, h⟩ := bind_eq_ok.mp h
  obtain ⟨grid, -, h⟩ := bind_eq_ok.mp h
  cases h
  exact checkDimensions_eq_ok_iff.mp hcheck

theorem areProper_of_generate {σ ε : Type} {refuse : TensorError κ → ε}
    {provide : List κ → ExceptT ε (StateM σ) α} {provider : Option δ} {before : σ}
    (h : (runFrom (generate refuse dims provide provider wildcard) before).1 = .ok t) :
    AreProper t.wildcard t.dimensions := by
  unfold generate at h
  cases hcheck : checkDimensions dims wildcard with
  | error e =>
    rw [hcheck] at h
    cases h
  | ok _ =>
    rw [hcheck] at h
    simp only [runFrom_bind] at h
    rcases hgrid : runFrom (Grid.generate provide dims) before with ⟨e | grid, after⟩
    · rw [hgrid] at h
      cases h
    · rw [hgrid] at h
      cases h
      exact checkDimensions_eq_ok_iff.mp hcheck

omit [Key κ] in
theorem exists_bareGrid_iff {dims : List (List κ)} :
    (∃ bare : Grid κ α dims, bareGrid? dims = some bare) ↔ dims ≠ [] := by
  cases dims with
  | nil => exact iff_of_false nofun (absurd rfl)
  | cons domain dims => exact iff_of_true ⟨_, rfl⟩ (List.cons_ne_nil domain dims)

/-- The dimensions that are kept are proper if there are any. -/
theorem AreProper.subTensor {selectors : List (Selector κ)}
    (ht : AreProper t.wildcard t.dimensions) (h : t.subTensor selectors = .ok s) :
    AreProper s.wildcard s.dimensions := by
  obtain ⟨choices, bare, -, hbare, rfl⟩ := subTensor_eq_ok h
  exact ⟨exists_bareGrid_iff.mp ⟨bare, hbare⟩,
    fun domain hmem => ht.different domain (mem_of_mem_keptDimensions hmem),
    fun domain hmem => ht.usable domain (mem_of_mem_keptDimensions hmem),
    fun domain hmem => ht.apart domain (mem_of_mem_keptDimensions hmem)⟩

/-- **Every tensor has proper dimensions.** -/
theorem Reachable.areProper (h : t.Reachable) : AreProper t.wildcard t.dimensions := by
  induction h with
  | ofNested h => exact areProper_of_ofNested h
  | generate h => exact areProper_of_generate h
  | subTensor _ h ih => exact ih.subTensor h

end LinModel.Tensor
