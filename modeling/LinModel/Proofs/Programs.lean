/-!
# Programs with a state

Running a program that may fail from a state: its result, and the state it leaves either way. Where
it may go is a relation between the states before and after; one that is reflexive and transitive
passes from the parts of a program to the whole (`Moves`).

Key definitions: `runFrom`, `attempt`, `Moves`.
Key theorems: `runFrom_bind`, `runFrom_bind_eq_ok`, `runFrom_bind_pure_error`,
`runFrom_tryCatch`, `runFrom_tryFinally`, `Moves.bind`, `Moves.mapM`, `Moves.foldlM`.
-/
namespace LinModel

variable {ε σ α β : Type}

/-- The result of a program and the state it leaves. -/
def runFrom (program : ExceptT ε (StateM σ) α) (s : σ) : Except ε α × σ :=
  StateT.run (ExceptT.run program) s

variable (s : σ)

@[simp] theorem runFrom_pure (a : α) :
    runFrom (pure a : ExceptT ε (StateM σ) α) s = (.ok a, s) := rfl

@[simp] theorem runFrom_throw (e : ε) :
    runFrom (throw e : ExceptT ε (StateM σ) α) s = (.error e, s) := rfl

@[simp] theorem runFrom_get : runFrom (get : ExceptT ε (StateM σ) σ) s = (.ok s, s) := rfl

@[simp] theorem runFrom_modify (f : σ → σ) :
    runFrom (modify f : ExceptT ε (StateM σ) Unit) s = (.ok (), f s) := rfl

theorem runFrom_bind (x : ExceptT ε (StateM σ) α) (f : α → ExceptT ε (StateM σ) β) :
    runFrom (x >>= f) s = match runFrom x s with
      | (.ok a, s') => runFrom (f a) s'
      | (.error e, s') => (.error e, s') := by
  have h : runFrom (x >>= f) s = (ExceptT.bindCont f (runFrom x s).1).run (runFrom x s).2 := rfl
  rw [h]
  rcases runFrom x s with ⟨r | a, s'⟩ <;> rfl

theorem runFrom_map (f : α → β) (x : ExceptT ε (StateM σ) α) :
    runFrom (f <$> x) s = ((runFrom x s).1.map f, (runFrom x s).2) := by
  rw [map_eq_pure_bind, runFrom_bind]
  rcases runFrom x s with ⟨e | a, s'⟩ <;> rfl

/-- A program after another returns if both do. -/
theorem runFrom_bind_eq_ok {x : ExceptT ε (StateM σ) α} {f : α → ExceptT ε (StateM σ) β} {b : β}
    {t : σ} : runFrom (x >>= f) s = (.ok b, t) ↔
      ∃ a s', runFrom x s = (.ok a, s') ∧ runFrom (f a) s' = (.ok b, t) := by
  rw [runFrom_bind]
  rcases runFrom x s with ⟨e | a, s'⟩
  · refine iff_of_false nofun ?_
    rintro ⟨a, s'', h, -⟩
    cases h
  · constructor
    · intro h
      exact ⟨a, s', rfl, h⟩
    · rintro ⟨a, s', ⟨⟩, h⟩
      exact h

omit s in
/-- Failing runs are the same if their failures and the states they leave are. -/
theorem error_eq_iff {e e' : ε} {t t' : σ} :
    ((.error e', t') : Except ε α × σ) = (.error e, t) ↔ e = e' ∧ t = t' := by
  constructor
  · rintro ⟨⟩
    exact ⟨rfl, rfl⟩
  · rintro ⟨rfl, rfl⟩
    rfl

/-- What only changes the result of a program fails as the program does. -/
theorem runFrom_bind_pure_error {x : ExceptT ε (StateM σ) α} {f : α → β} {e : ε} {t : σ} :
    runFrom (x >>= fun a => pure (f a)) s = (.error e, t) ↔ runFrom x s = (.error e, t) := by
  rw [runFrom_bind]
  rcases runFrom x s with ⟨e' | a, t'⟩
  · exact error_eq_iff.trans error_eq_iff.symm
  · exact iff_of_false nofun nofun

theorem runFrom_tryCatch (x : ExceptT ε (StateM σ) α) (f : ε → ExceptT ε (StateM σ) α) :
    runFrom (tryCatch x f) s = match runFrom x s with
      | (.ok a, s') => (.ok a, s')
      | (.error e, s') => runFrom (f e) s' := by
  have h : runFrom (tryCatch x f) s = (ExceptT.tryCatch x f).run.run s := rfl
  have hx : StateT.run x s = runFrom x s := rfl
  rw [h, ExceptT.tryCatch, ExceptT.run_mk, StateT.run_bind, hx]
  rcases runFrom x s with ⟨r | a, s'⟩ <;> rfl

/-- What is done in the end changes the state that a program leaves, and nothing else. -/
theorem runFrom_tryFinally (x : ExceptT ε (StateM σ) α) (f : σ → σ) :
    runFrom (tryFinally x (modify f)) s = ((runFrom x s).1, f (runFrom x s).2) := by
  have h : ∀ y : σ → Except ε α × σ,
      runFrom (tryFinally (y : ExceptT ε (StateM σ) α) (modify f)) s = ((y s).1, f (y s).2) := by
    intro y
    unfold runFrom tryFinally tryFinally' ExceptT.finally
    simp only [ExceptT.run_map, ExceptT.run_mk, StateT.run_map, StateT.run_bind]
    unfold tryFinally' StateT.tryFinally Id.finally
    simp only [StateT.run, bind, pure]
    rcases y s with ⟨r | a, s'⟩ <;> rfl
  exact h x

/-- Wording failures in another way changes nothing else. -/
theorem runFrom_adapt {ε' : Type} (f : ε → ε') (x : ExceptT ε (StateM σ) α) :
    runFrom (ExceptT.adapt f x) s = ((runFrom x s).1.mapError f, (runFrom x s).2) := rfl

/-- The result of a program, whether it returns or fails. -/
def attempt (x : ExceptT ε (StateM σ) α) : ExceptT ε (StateM σ) (Except ε α) :=
  ExceptT.lift (ExceptT.run x)

/-! ### Where a program may go -/

/-- Whatever state it starts from, and whether it returns or fails, the program goes to a state that
is related to it. -/
def Moves (R : σ → σ → Prop) (x : ExceptT ε (StateM σ) α) : Prop :=
  ∀ s, R s (runFrom x s).2

namespace Moves

variable {R : σ → σ → Prop} {x : ExceptT ε (StateM σ) α} {f : α → ExceptT ε (StateM σ) β}
  (hrefl : ∀ s, R s s) (htrans : ∀ s t u, R s t → R t u → R s u)

include hrefl

theorem pure (a : α) : Moves R (Pure.pure a : ExceptT ε (StateM σ) α) := hrefl

theorem throw (e : ε) : Moves R (MonadExcept.throw e : ExceptT ε (StateM σ) α) := hrefl

omit hrefl
include htrans

theorem bind (hx : Moves R x) (hf : ∀ a, Moves R (f a)) : Moves R (x >>= f) := by
  intro s
  have hfirst := hx s
  rw [runFrom_bind]
  rcases hrun : runFrom x s with ⟨e | a, s'⟩
  · rw [hrun] at hfirst
    exact hfirst
  · rw [hrun] at hfirst
    exact htrans _ _ _ hfirst (hf a s')

include hrefl

theorem mapM {γ : Type} {g : γ → ExceptT ε (StateM σ) α} (hg : ∀ c, Moves R (g c)) :
    ∀ l : List γ, Moves R (l.mapM g)
  | [] => pure hrefl []
  | c :: l => by
    rw [List.mapM_cons]
    exact bind htrans (hg c) fun a => bind htrans (mapM hg l) fun as => pure hrefl (a :: as)

theorem foldlM {γ : Type} {g : α → γ → ExceptT ε (StateM σ) α} (hg : ∀ a c, Moves R (g a c)) :
    ∀ (l : List γ) (a : α), Moves R (l.foldlM g a)
  | [], a => pure hrefl a
  | c :: l, a => by
    rw [List.foldlM_cons]
    exact bind htrans (hg a c) fun a' => foldlM hg l a'

end Moves
end LinModel
