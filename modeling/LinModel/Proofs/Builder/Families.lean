import LinModel.Proofs.Compiling.Meaning
import LinModel.Proofs.Tensor.Keys

/-!
# A family that fails with an error leaves no trace

A family is declared by a client of the builder, who has a state and failures of its own: the keys
come from it, and it is asked to declare each member. Whatever it does, as long as it does it by
declarations, the variables that were there before come first and keep their place, and the new ones
have names that none of these had (`Declares.exists_new`). Keeping what had its name before, and
counting from the old number, is then taking back exactly what was declared
(`rollback_of_declares`), at whatever point the family failed. So a family that fails with an error
is one that declares nothing, and the members of a family may themselves be made by families
(`OnlyDeclares.family`).

An interruption is no error, and nothing is taken back for it: what the family declared until then
stays, behind the variables that were there.

Key definitions: `ClientM`, `Builder.Declares`, `ClientM.OnlyDeclares`.
Key theorems: `Moves.generate`, `Builder.Declares.exists_new`, `Builder.rollback_of_declares`,
`ClientM.OnlyDeclares.family`, `ClientM.family_leaves_no_trace`.
-/
namespace LinModel

/-! ### Filling a grid -/

namespace Moves

variable {σ ε α κ : Type} {R : σ → σ → Prop} (hrefl : ∀ s, R s s)
  (htrans : ∀ s t u, R s t → R t u → R s u)

include hrefl htrans

/-- Filling a grid goes where its provider does, from key tuple to key tuple. -/
theorem grid [Key κ] (dims : List (List κ)) {provide : List κ → ExceptT ε (StateM σ) α}
    (h : ∀ keys, Moves R (provide keys)) : Moves R (Grid.generate provide dims) := by
  cases dims with
  | nil => exact h []
  | cons domain dims =>
    exact foldlM hrefl htrans
      (fun _ keys => bind htrans (h keys) fun _ => pure hrefl _) (product (domain :: dims)) _

theorem generate {δ : Type} [Key κ] (refuse : TensorError κ → ε) (dims : List (List κ))
    {provide : List κ → ExceptT ε (StateM σ) α} (h : ∀ keys, Moves R (provide keys))
    (provider : Option δ) (wildcard : Option κ) :
    Moves R (Tensor.generate refuse dims provide provider wildcard) := by
  unfold Tensor.generate
  cases Tensor.checkDimensions dims wildcard with
  | error e => exact throw hrefl (refuse e)
  | ok _ => exact bind htrans (grid hrefl htrans dims h) fun g => pure hrefl _

end Moves

/-! ### Declarations -/

namespace Builder

variable {K L : Type} [Scalar K]

/-- A builder after another, with nothing but declarations in between; one that fails counts with
the name that it uses up. -/
inductive Declares (b : Builder K L) : Builder K L → Prop
  | refl : Declares b b
  | declare {c : Builder K L} (h : Declares b c) (kind : VariableKind)
      (name : Option VariableName) (lower upper : Option K) :
      Declares b (after (Builder.declare kind name lower upper) c)

theorem Declares.trans {b c d : Builder K L} (h : Declares b c) (hd : Declares c d) :
    Declares b d := by
  induction hd with
  | refl => exact h
  | declare _ kind name lower upper ih => exact .declare ih kind name lower upper

/-- **Declarations only add variables**, behind those that were there and with new names. -/
theorem Declares.exists_new {b c : Builder K L} (h : Declares b c) :
    ∃ n new, c = { b with sequence := n, vars := b.vars ++ new } ∧
      ∀ x ∈ new, x.name ∉ b.names := by
  induction h with
  | refl => exact ⟨b.sequence, [], by rw [List.append_nil], nofun⟩
  | declare _ kind name lower upper ih =>
    obtain ⟨n, new, rfl, hnew⟩ := ih
    obtain ⟨n', hafter | ⟨x, -, hx, hafter⟩⟩ :=
      after_declare { b with sequence := n, vars := b.vars ++ new } kind name lower upper
    · exact ⟨n', new, hafter, hnew⟩
    · -- the name was new among all variables so far, and those of `b` are among them
      have hname : x.name ∉ b.names := by
        intro hmem
        apply hx
        rw [names, List.map_append]
        exact List.mem_append_left _ hmem
      refine ⟨n', new ++ [x], ?_, ?_⟩
      · rw [hafter, List.append_assoc]
      · intro y hy
        rcases List.mem_append.mp hy with hy | hy
        · exact hnew y hy
        · rwa [List.mem_singleton.mp hy]

omit [Scalar K] in
theorem filter_registered (b : Builder K L) :
    b.vars.filter (fun v => b.names.contains v.name) = b.vars := by
  rw [List.filter_eq_self]
  intro v hv
  have hmem : v.name ∈ b.names := List.mem_map_of_mem hv
  simpa using hmem

/-- **What is taken back is what was declared.** -/
theorem rollback_of_declares {b c : Builder K L} (h : Declares b c) : rollback b c = b := by
  obtain ⟨n, new, rfl, hnew⟩ := h.exists_new
  have hgone : new.filter (fun v => b.names.contains v.name) = [] := by
    rw [List.filter_eq_nil_iff]
    intro v hv
    simpa using hnew v hv
  unfold rollback
  simp only [List.filter_append, filter_registered, hgone, List.append_nil]

end Builder

/-! ### Clients of a builder -/

/-- Programs of a client of a builder, with a state and failures of its own. -/
abbrev ClientM (K L ρ ε : Type) := ExceptT ε (StateM (Builder K L × ρ))

/-- The failures of a client that may be stopped by its user. -/
inductive Outage
  | error (message : String)
  | stopped
deriving DecidableEq

instance : Interruptible Outage where
  isInterruption
    | .error _ => false
    | .stopped => true

namespace ClientM

variable {K L ρ ε α β : Type}

instance : MonadStateOf (Builder K L) (ClientM K L ρ ε) where
  get := do return (← getThe (Builder K L × ρ)).1
  set b := modifyThe (Builder K L × ρ) fun s => (b, s.2)
  modifyGet f := modifyGetThe (Builder K L × ρ) fun s => ((f s.1).1, (f s.1).2, s.2)

/-- A program on the builder alone, its failures in the words of the client. -/
def onBuilder (word : BuilderError K → ε) (program : BuilderM K L α) : ClientM K L ρ ε α := do
  let s ← getThe (Builder K L × ρ)
  let (result, b) := runFrom program s.1
  set (b, s.2)
  match result with
  | .ok a => return a
  | .error e => throw (word e)

theorem runFrom_onBuilder (word : BuilderError K → ε) (program : BuilderM K L α)
    (s : Builder K L × ρ) : runFrom (onBuilder word program) s
      = ((runFrom program s.1).1.mapError word, (runFrom program s.1).2, s.2) := by
  have h : runFrom (onBuilder word program) s
      = runFrom (match (runFrom program s.1).1 with
          | .ok a => pure a
          | .error e => throw (word e)) ((runFrom program s.1).2, s.2) := rfl
  rw [h]
  cases (runFrom program s.1).1 with
  | ok a => rfl
  | error e => rfl

theorem runFrom_undoingOnError [Interruptible ε] (program : ClientM K L ρ ε α)
    (s : Builder K L × ρ) :
    runFrom (Builder.undoingOnError (K := K) (L := L) (ε := ε) program) s
      = match runFrom program s with
        | (.ok a, s') => (.ok a, s')
        | (.error e, s') => (.error e,
            if Interruptible.isInterruption e then s' else (Builder.rollback s.1 s'.1, s'.2)) := by
  have h : runFrom (Builder.undoingOnError (K := K) (L := L) (ε := ε) program) s
      = runFrom (tryCatch program fun e => do
          unless Interruptible.isInterruption e do modify (Builder.rollback (K := K) (L := L) s.1)
          throw e) s := rfl
  rw [h, runFrom_tryCatch]
  rcases runFrom program s with ⟨e | a, s'⟩
  · cases hpasses : Interruptible.isInterruption e <;> simp only [hpasses] <;> rfl
  · rfl

variable [Scalar K]

/-- Whatever state it starts from, and whether it returns or fails, the program does nothing to the
builder but declare. -/
def OnlyDeclares (program : ClientM K L ρ ε α) : Prop :=
  ∀ s, Builder.Declares s.1 (runFrom program s).2.1

namespace OnlyDeclares

/-- What leaves the builder alone is the client's own business. -/
theorem of_untouched {program : ClientM K L ρ ε α} (h : ∀ s, (runFrom program s).2.1 = s.1) :
    OnlyDeclares program := by
  intro s
  rw [h s]
  exact .refl

theorem pure (a : α) : OnlyDeclares (Pure.pure a : ClientM K L ρ ε α) :=
  of_untouched fun _ => rfl

theorem throw (e : ε) : OnlyDeclares (MonadExcept.throw e : ClientM K L ρ ε α) :=
  of_untouched fun _ => rfl

theorem declare (word : BuilderError K → ε) (kind : VariableKind) (name : Option VariableName)
    (lower upper : Option K) : OnlyDeclares (onBuilder word
      (Builder.declare kind name lower upper : BuilderM K L _) : ClientM K L ρ ε _) := by
  intro s
  rw [runFrom_onBuilder]
  exact .declare (.refl) kind name lower upper

theorem bind {x : ClientM K L ρ ε α} {f : α → ClientM K L ρ ε β} (hx : OnlyDeclares x)
    (hf : ∀ a, OnlyDeclares (f a)) : OnlyDeclares (x >>= f) :=
  Moves.bind (R := fun s t : Builder K L × ρ => Builder.Declares s.1 t.1)
    (fun _ _ _ h hd => h.trans hd) hx hf

theorem generate {κ δ : Type} [Key κ] (refuse : TensorError κ → ε) (dims : List (List κ))
    {provide : List κ → ClientM K L ρ ε α} (h : ∀ keys, OnlyDeclares (provide keys))
    (provider : Option δ) (wildcard : Option κ) :
    OnlyDeclares (Tensor.generate refuse dims provide provider wildcard) :=
  Moves.generate (R := fun s t : Builder K L × ρ => Builder.Declares s.1 t.1) (fun _ => .refl)
    (fun _ _ _ h hd => h.trans hd) refuse dims h provider wildcard

/-- A program that takes back what it declared has declared nothing then. -/
theorem undoingOnError [Interruptible ε] {program : ClientM K L ρ ε α} (h : OnlyDeclares program) :
    OnlyDeclares (Builder.undoingOnError (K := K) (L := L) (ε := ε) program) := by
  intro s
  have hprogram := h s
  rw [runFrom_undoingOnError]
  rcases hrun : runFrom program s with ⟨e | a, s'⟩
  · rw [hrun] at hprogram
    simp only
    by_cases hpasses : Interruptible.isInterruption e = true
    · rw [if_pos hpasses]
      exact hprogram
    · rw [if_neg hpasses, Builder.rollback_of_declares hprogram]
      exact .refl
  · rw [hrun] at hprogram
    exact hprogram

end OnlyDeclares

/-! ### Families -/

section Family

variable {κ δ : Type} [Key κ] [Interruptible ε] {dimensions : ClientM K L ρ ε (List (List κ))}
  {refuse : ClientM K L ρ ε (TensorError κ → ε)} {nameOf : List κ → ClientM K L ρ ε String}
  {provide : String → ClientM K L ρ ε α}
  (hdimensions : OnlyDeclares dimensions) (hrefuse : OnlyDeclares refuse)
  (hname : ∀ keys, OnlyDeclares (nameOf keys)) (hprovide : ∀ name, OnlyDeclares (provide name))

include hdimensions hrefuse hname hprovide

omit [Interruptible ε] in
theorem onlyDeclares_members : OnlyDeclares (do
    let dims ← dimensions
    Tensor.generate (← refuse) dims (fun keys => do provide (← nameOf keys)) none none :
      ClientM K L ρ ε (Tensor κ δ α)) := by
  refine hdimensions.bind fun dims => hrefuse.bind fun word => ?_
  exact .generate word dims (fun keys => (hname keys).bind hprovide) none none

/-- A family only declares, so it may make a member of another. -/
theorem OnlyDeclares.family : OnlyDeclares (Builder.family (K := K) (L := L) (ε := ε) dimensions
    refuse nameOf provide : ClientM K L ρ ε (Tensor κ δ α)) :=
  .undoingOnError (onlyDeclares_members hdimensions hrefuse hname hprovide)

end Family

/-- Declares a variable of the given name and one of an automatic name, counts how often it was
called, and fails at the third call. -/
def faltering (failure : Outage) (name : String) : ClientM Extended String ℕ Outage Unit := do
  let calls ← modifyGetThe (Builder Extended String × ℕ) fun s => (s.2, s.1, s.2 + 1)
  let _ ← onBuilder (fun _ => .error "refused")
    (Builder.declare .numeric (VariableName.ofText? name) none none)
  let _ ← onBuilder (fun _ => .error "refused") (Builder.declare .numeric none none none)
  if calls = 2 then throw failure

theorem onlyDeclares_faltering (failure : Outage) (name : String) :
    OnlyDeclares (faltering failure name) := by
  refine .bind (.of_untouched fun _ => rfl) fun calls => ?_
  refine .bind (.declare _ _ _ _ _) fun _ => .bind (.declare _ _ _ _ _) fun _ => ?_
  by_cases h : calls = 2
  · rw [if_pos h]
    exact .throw failure
  · rw [if_neg h]
    exact .pure ()

/-- A family of four members on the sample, of which the third falters. -/
def falteringRun (failure : Outage) :
    Except Outage (Tensor PlainKey Unit Unit) × Builder Extended String × ℕ :=
  runFrom (Builder.family (K := Extended) (L := String) (ε := Outage)
    (pure [[.text "a", .text "b"], [.text "c", .text "d"]]) (pure fun _ => .error "refused")
    (fun keys => pure (familyName "x" (keys.map fun
      | .text t => t
      | _ => ""))) (faltering failure) : ClientM Extended String ℕ Outage _) (Builder.sample, 0)

/-- When the third member falters, six variables have been declared. -/
theorem exists_falteringRun {failure : Outage} (h : failure ∈ [.error "enough", .stopped]) :
    ∃ s', falteringRun failure = (.error failure, s') ∧ s'.2 = 3 := by
  have hruns : ∀ failure ∈ [Outage.error "enough", .stopped],
      (falteringRun failure).1.map (fun _ => ()) = .error failure ∧
        (falteringRun failure).2.2 = 3 := by
    decide +kernel
  obtain ⟨hfails, hcalls⟩ := hruns failure h
  rcases hrun : falteringRun failure with ⟨e | t, s'⟩
  · rw [hrun] at hfails hcalls
    cases hfails
    exact ⟨s', rfl, hcalls⟩
  · rw [hrun] at hfails
    cases hfails

end ClientM
end LinModel
