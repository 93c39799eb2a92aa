import LinModel.Proofs.Builder.Families

/-!
# What a failed declaration leaves

A declaration takes a name, makes a variable of it and registers the variable. Only the first and
the last of these touch the builder: taking an automatic name uses it up, and registering adds a
variable or fails without a change. So a declaration that fails leaves the variables, the
constraints, the objective and the open block as they were, wherever it fails, and a declaration
with a name of its own leaves the whole builder as it was. One without a name does not: the next
automatic name is then another one (`ClientM.failed_declaration_leaves`).

The name, the kind and the bounds are read by programs of the caller, which may refuse them for
reasons of their own, such as an empty name, a kind that there is not, or bounds that are no
numbers; all that is asked of them is that they leave the builder alone.

Key definitions: `Builder.named`, `ClientM.LeavesBuilder`, `ClientM.FailsInPlace`.
Key theorems: `Builder.runFrom_declare`, `Builder.declare_eq_declareFor`,
`ClientM.LeavesBuilder.failsInPlace_bind`, `ClientM.failed_declaration_leaves`.
-/
namespace LinModel

variable {K L ρ ε ν α β : Type}

/-! ### Bounds -/

namespace Variable

section Requests

variable [Scalar K] (name : VariableName) (kind : VariableKind) (lower upper : Option K)

/-- The variable that a declaration asks for. -/
def requested : Variable K :=
  match kind with
  | .boolean => ⟨name, .boolean, Scalar.zero, Scalar.one⟩
  | kind => ⟨name, kind, lower.getD (-Scalar.infinity), upper.getD Scalar.infinity⟩

/-- Bounds that a variable of the kind may have: booleans are given zero and one or nothing, for
others neither bound is NaN and the lower one is at most the upper one. -/
def Fits : Prop :=
  match kind with
  | .boolean => agrees lower Scalar.zero ∧ agrees upper Scalar.one
  | _ => Scalar.isNaN (lower.getD (-Scalar.infinity)) = false ∧
      Scalar.isNaN (upper.getD Scalar.infinity) = false ∧
      Scalar.le (lower.getD (-Scalar.infinity)) (upper.getD Scalar.infinity) = true

theorem requested_name : (requested name kind lower upper).name = name := by
  cases kind <;> rfl

end Requests

/-- **What is asked for is made if the bounds fit, and nothing else is.** -/
theorem declare_eq_ok {name : VariableName} {kind : VariableKind} {lower upper : Option Extended}
    {x : Variable Extended} : declare name kind lower upper = .ok x ↔
      Fits kind lower upper ∧ x = requested name kind lower upper := by
  have hbounds : ∀ {kind : VariableKind} {low high : Extended},
      (if Scalar.isNaN low || Scalar.isNaN high then .error (.notANumber name)
        else if Scalar.lt high low then .error (.inverted name low high)
        else .ok ⟨name, kind, low, high⟩ : Except (BoundsError Extended) (Variable Extended))
          = .ok x ↔
      (Scalar.isNaN low = false ∧ Scalar.isNaN high = false ∧ Scalar.le low high = true) ∧
        x = ⟨name, kind, low, high⟩ := by
    intro kind low high
    constructor
    · intro h
      split_ifs at h with hnan hinv
      cases h
      simp only [Bool.or_eq_true, not_or, Bool.not_eq_true] at hnan hinv
      exact ⟨⟨hnan.1, hnan.2, (Extended.le_iff_not_lt hnan.1 hnan.2).mpr hinv⟩, rfl⟩
    · rintro ⟨⟨hlow, hhigh, hle⟩, rfl⟩
      have hinv := (Extended.le_iff_not_lt hlow hhigh).mp hle
      simp [hlow, hhigh, hinv]
  cases kind with
  | boolean =>
    unfold declare Fits requested
    constructor
    · intro h
      split_ifs at h with hagree
      cases h
      exact ⟨Bool.and_eq_true_iff.mp hagree, rfl⟩
    · rintro ⟨hagree, rfl⟩
      exact if_pos (Bool.and_eq_true_iff.mpr hagree)
  | integer => exact hbounds
  | numeric => exact hbounds

end Variable

namespace Builder

/-- The builder once a declaration has its name: an automatic one is used up. -/
def named (b : Builder K L) (explicit : Bool) : Builder K L :=
  if explicit then b else { b with sequence := b.sequence + 1 }

theorem nextName_ne {b c : Builder K L} (h : c.sequence = b.sequence + 1) :
    c.nextName ≠ b.nextName := by
  unfold nextName
  rw [ne_eq, VariableName.automatic_inj, h]
  omega

variable [Scalar K]

/-- A declaration fails at its bounds or at a name that is taken, and registers its variable
otherwise; its name is used up in any case. -/
theorem runFrom_declare (kind : VariableKind) (name : Option VariableName) (lower upper : Option K)
    (b : Builder K L) :
    runFrom (declare kind name lower upper) b
      = match Variable.declare (name.getD b.nextName) kind lower upper with
        | .error e => (.error (.bounds e), b.named name.isSome)
        | .ok x => runFrom (register x) (b.named name.isSome) := by
  have hname : runFrom (nameFor (K := K) (L := L) name : BuilderM K L _) b
      = (.ok (name.getD b.nextName), b.named name.isSome) := by
    cases name with
    | some n => rfl
    | none => rfl
  unfold declare
  rw [runFrom_bind, hname]
  simp only
  cases Variable.declare (name.getD b.nextName) kind lower upper with
  | error e => rfl
  | ok x => rfl

section Fitting

variable {kind : VariableKind} {lower upper : Option Extended}

theorem runFrom_declare_of_fits (h : Variable.Fits kind lower upper) (name : Option VariableName)
    (b : Builder Extended L) :
    runFrom (declare kind name lower upper) b
      = if name.getD b.nextName ∈ b.names then
          (.error (.duplicateName (name.getD b.nextName)), b.named name.isSome)
        else
          (.ok (.requested (name.getD b.nextName) kind lower upper),
            { b.named name.isSome with
              vars := b.vars ++ [.requested (name.getD b.nextName) kind lower upper] }) := by
  have hnames : (b.named name.isSome).names = b.names ∧ (b.named name.isSome).vars = b.vars := by
    cases name with
    | some n => exact ⟨rfl, rfl⟩
    | none => exact ⟨rfl, rfl⟩
  rw [runFrom_declare, Variable.declare_eq_ok.mpr ⟨h, rfl⟩]
  simp only
  rw [runFrom_register, hnames.1, hnames.2, Variable.requested_name]
  simp only [List.contains_iff_mem]

theorem runFrom_declare_of_not_fits (h : ¬Variable.Fits kind lower upper)
    (name : Option VariableName) (b : Builder Extended L) :
    ∃ e, runFrom (declare kind name lower upper) b = (.error e, b.named name.isSome) := by
  rw [runFrom_declare]
  cases hx : Variable.declare (name.getD b.nextName) kind lower upper with
  | error e => exact ⟨_, rfl⟩
  | ok x => exact absurd (Variable.declare_eq_ok.mp hx).1 h

end Fitting

/-- A declaration on the builder alone is one for a caller that has the name and the bounds. -/
theorem declare_eq_declareFor (kind : VariableKind) (name : Option VariableName)
    (lower upper : Option K) :
    (declare kind name lower upper : BuilderM K L (Variable K))
      = Prod.snd <$> declareFor id (name.map pure) pure fun n =>
          match Variable.declare n kind lower upper with
          | .ok x => pure x
          | .error e => throw (.bounds e) := by
  unfold declare declareFor
  cases name with
  | some n =>
    simp only [nameFor, Option.map_some, map_eq_pure_bind, bind_assoc, pure_bind, id]
    cases Variable.declare n kind lower upper with
    | ok x => simp only [pure_bind, bind_pure]
    | error e => rfl
  | none =>
    simp only [Option.map_none, map_eq_pure_bind, bind_assoc, pure_bind, id]
    congr 1
    funext n
    cases Variable.declare n kind lower upper with
    | ok x => simp only [pure_bind, bind_pure]
    | error e => rfl

end Builder

namespace ClientM

/-! ### Programs that leave the builder alone -/

/-- Whatever state it starts from, and whether it returns or fails, the program leaves the builder
alone. -/
def LeavesBuilder (program : ClientM K L ρ ε α) : Prop :=
  ∀ s, (runFrom program s).2.1 = s.1

/-- Whatever state it starts from, the program leaves the builder alone if it fails. -/
def FailsInPlace (program : ClientM K L ρ ε α) : Prop :=
  ∀ s e s', runFrom program s = (.error e, s') → s'.1 = s.1

theorem LeavesBuilder.pure (a : α) : LeavesBuilder (Pure.pure a : ClientM K L ρ ε α) :=
  fun _ => rfl

theorem LeavesBuilder.throw (e : ε) : LeavesBuilder (MonadExcept.throw e : ClientM K L ρ ε α) :=
  fun _ => rfl

/-- What runs first may fail at any point, as long as it leaves the builder alone. -/
theorem LeavesBuilder.failsInPlace_bind {x : ClientM K L ρ ε α} {f : α → ClientM K L ρ ε β}
    (hx : LeavesBuilder x) (hf : ∀ a, FailsInPlace (f a)) : FailsInPlace (x >>= f) := by
  intro s e s' h
  have hfirst := hx s
  rw [runFrom_bind] at h
  rcases hrun : runFrom x s with ⟨e' | a, t⟩
  · rw [hrun] at h hfirst
    obtain ⟨-, rfl⟩ := error_eq_iff.mp h
    exact hfirst
  · rw [hrun] at h hfirst
    exact (hf a t e s' h).trans hfirst

/-- What only changes the result of a program fails in place as the program does. -/
theorem FailsInPlace.bind_pure {x : ClientM K L ρ ε α} (hx : FailsInPlace x) (f : α → β) :
    FailsInPlace (x >>= fun a => pure (f a)) :=
  fun s e s' h => hx s e s' ((runFrom_bind_pure_error s).mp h)

/-- Registering fails if the name is taken, and then changes nothing. -/
theorem failsInPlace_register (word : BuilderError K → ε) (x : Variable K) :
    FailsInPlace (onBuilder word (Builder.register x) : ClientM K L ρ ε (Variable K)) := by
  intro s e s' h
  rw [runFrom_onBuilder, Builder.runFrom_register] at h
  by_cases htaken : s.1.names.contains x.name
  · rw [if_pos htaken] at h
    obtain ⟨-, rfl⟩ := error_eq_iff.mp h
    rfl
  · rw [if_neg htaken] at h
    cases h

/-! ### Declarations -/

section Declaring

variable (word : BuilderError K → ε) {given : Option (ClientM K L ρ ε ν)}
  {ofName : VariableName → ClientM K L ρ ε ν} {make : ν → ClientM K L ρ ε (Variable K)}

/-- Once the name is there, a declaration that fails leaves the builder alone. -/
theorem failsInPlace_making (hmake : ∀ name, LeavesBuilder (make name)) (name : ν) :
    FailsInPlace (do
      let x ← make name
      return (name, ← onBuilder word (Builder.register x)) :
        ClientM K L ρ ε (ν × Variable K)) := by
  refine (hmake name).failsInPlace_bind fun x => ?_
  exact (failsInPlace_register word x).bind_pure fun y => (name, y)

/-- **What a failed declaration leaves.** Let a caller read the name, if it gives one, the kind and
the bounds by programs that leave the builder alone and may fail at any point. If the declaration
fails, be it at the name, the kind or the bounds or because the name is taken, then the builder is
what it was, if the caller gave a name. If it gave none, then the builder has the same variables,
constraints and objective and the same open block, but an automatic name is used up, and the next
one is another. -/
theorem failed_declaration_leaves (hgiven : ∀ read ∈ given, LeavesBuilder read)
    (hofName : ∀ n, LeavesBuilder (ofName n)) (hmake : ∀ name, LeavesBuilder (make name))
    {s s' : Builder K L × ρ} {e : ε}
    (h : runFrom (Builder.declareFor (onBuilder word) given ofName make) s = (.error e, s')) :
    (given.isSome → s'.1 = s.1) ∧
      (given = none → s'.1 = { s.1 with sequence := s.1.sequence + 1 } ∧
        s'.1.nextName ≠ s.1.nextName) := by
  have hmaking := failsInPlace_making (L := L) (ρ := ρ) word hmake
  cases given with
  | some read =>
    refine ⟨fun _ => ?_, nofun⟩
    exact (hgiven read rfl).failsInPlace_bind hmaking s e s' h
  | none =>
    refine ⟨nofun, fun _ => ?_⟩
    -- the automatic name is given out first, and all that follows fails in place
    have hleft : s'.1 = { s.1 with sequence := s.1.sequence + 1 } :=
      ((hofName s.1.nextName).failsInPlace_bind hmaking)
        ({ s.1 with sequence := s.1.sequence + 1 }, s.2) e s' h
    refine ⟨hleft, Builder.nextName_ne ?_⟩
    rw [hleft]

end Declaring

/-- Declares a numeric variable whose name is read off a text, with a lower bound. -/
def declareText (text : Option String) (lower : Extended) :
    ClientM Extended String Unit String (VariableName × Variable Extended) :=
  Builder.declareFor (onBuilder fun _ => "taken") (text.map readName) pure (bounded lower)
where
  /-- The name that a text is. -/
  readName (text : String) : ClientM Extended String Unit String VariableName :=
    match VariableName.ofText? text with
    | some name => pure name
    | none => throw "empty name"
  /-- A variable with a lower bound. -/
  bounded (lower : Extended) (name : VariableName) :
      ClientM Extended String Unit String (Variable Extended) :=
    match Variable.declare name .numeric (some lower) none with
    | .ok x => pure x
    | .error _ => throw "no bound"

theorem leavesBuilder_readName (text : String) : LeavesBuilder (declareText.readName text) := by
  unfold declareText.readName
  cases VariableName.ofText? text with
  | some name => exact .pure name
  | none => exact .throw _

theorem leavesBuilder_bounded (lower : Extended) (name : VariableName) :
    LeavesBuilder (declareText.bounded lower name) := by
  unfold declareText.bounded
  cases Variable.declare name .numeric (some lower) none with
  | ok x => exact .pure x
  | error e => exact .throw _

/-- An empty name leaves the sample as it was; a NaN for a bound uses up an automatic name. -/
theorem sample_declarations_fail :
    (∃ e s', runFrom (declareText (some "") (.rational 0)) (Builder.sample, ()) = (.error e, s') ∧
      s'.1 = Builder.sample) ∧
    ∃ e s', runFrom (declareText none .notANumber) (Builder.sample, ()) = (.error e, s') ∧
      s'.1 = { Builder.sample with sequence := Builder.sample.sequence + 1 } := by
  have hread : ∀ text : Option String, ∀ read ∈ text.map declareText.readName,
      LeavesBuilder read := by
    rintro (_ | text) _ ⟨⟩
    exact leavesBuilder_readName text
  have hempty : ∃ e s', runFrom (declareText (some "") (.rational 0)) (Builder.sample, ())
      = (.error e, s') := ⟨_, _, rfl⟩
  have hbound : ∃ e s', runFrom (declareText none .notANumber) (Builder.sample, ())
      = (.error e, s') := ⟨_, _, rfl⟩
  obtain ⟨e, s', he⟩ := hempty
  obtain ⟨e', s'', he'⟩ := hbound
  refine ⟨⟨e, s', he, ?_⟩, e', s'', he', ?_⟩
  · exact (failed_declaration_leaves _ (hread (some "")) .pure (leavesBuilder_bounded _) he).1 rfl
  · exact ((failed_declaration_leaves _ (hread none) .pure (leavesBuilder_bounded _) he').2 rfl).1

end ClientM

namespace Builder

/-- On the empty builder the next automatic name is `x1`; after a declaration that is refused for
its bound it is `x2`. -/
theorem refused_bound_uses_up_name : (empty : Builder Extended String).Reachable ∧
    (∃ x d, runFrom (declare .numeric none none none) (empty : Builder Extended String)
      = (.ok x, d) ∧ x.name.text = "x1") ∧
    ∃ e c, runFrom (declare .numeric none (some .notANumber) none) (empty : Builder Extended String)
        = (.error e, c) ∧
      ∃ x d, runFrom (declare .numeric none none none) c = (.ok x, d) ∧ x.name.text = "x2" :=
  ⟨.refl _, ⟨_, _, rfl, by decide +kernel⟩, _, _, rfl, _, _, rfl, by decide +kernel⟩

end Builder
end LinModel
