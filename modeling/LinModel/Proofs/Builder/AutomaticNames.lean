import LinModel.Proofs.Builder.Declarations
import LinModel.Proofs.Builder.Histories

/-!
# When an automatic name is free

A variable without a name gets the next automatic one, `x` and a number, and nothing keeps a caller
from giving that name to another variable before. On any builder, a declaration without a name whose
bounds fit returns if and only if the next automatic name is not registered, and a reformulation is
refused for a name if and only if one of its helpers' names is registered.

Automatic names come in order, so these are free as long as the registered names are counted: no
registered name is an automatic one whose number is still to come. Everything keeps names counted,
but for a variable that is registered under an automatic name before its time: taking a name
advances the number, and a family that fails goes back to the number it started with, but keeps no
name that it registered. So in a run of a client that does no such thing, every declaration without
a name returns, and under a new name (`Client.automatic_names_free`).

Key definitions: `Builder.CountsNames`, `Note.IsInTurn`, `Diary.CountsNames`.
Key theorems: `Builder.runFrom_declare_none`, `Builder.refused_for_name_iff`,
`Builder.Operation.countsNames`, `Client.passes_countsNames`, `Client.automatic_names_free`.
-/
namespace LinModel

variable {K L κ ε α : Type}

/-! ### One declaration -/

namespace Builder

section OneDeclaration

variable {b : Builder Extended L}

/-- The next automatic name is registered if it is free and refused if it is not. -/
theorem runFrom_declare_none {kind : VariableKind} {lower upper : Option Extended}
    (h : Variable.Fits kind lower upper) :
    runFrom (declare kind none lower upper) b
      = if b.nextName ∈ b.names then
          (.error (.duplicateName b.nextName), { b with sequence := b.sequence + 1 })
        else
          (.ok (.requested b.nextName kind lower upper),
            { b with
              sequence := b.sequence + 1
              vars := b.vars ++ [.requested b.nextName kind lower upper] }) :=
  runFrom_declare_of_fits h none b

/-- **A reformulation is refused for a name if one of its helpers' names is taken.** -/
theorem refused_for_name_iff (r : Recipe Extended) :
    (∃ name c, runFrom r.run b = (.error (.duplicateName name), c)) ↔
      ∃ x ∈ (r.plan b.sequence).helpers, x.name ∈ b.names := by
  have hletIn : ∀ x, (∃ e, b.letIn x = .error e) ↔ x.name ∈ b.names := by
    intro x
    unfold letIn
    by_cases hmem : x.name ∈ b.names
    · rw [if_pos hmem]
      exact iff_of_true ⟨_, rfl⟩ hmem
    · rw [if_neg hmem]
      exact iff_of_false nofun hmem
  have hfails : (∃ before name, FailsAfter b.letIn before name (r.plan b.sequence).helpers) ↔
      ∃ x ∈ (r.plan b.sequence).helpers, x.name ∈ b.names := by
    simp only [FailsAfter.exists_iff, hletIn]
  rw [← hfails]
  constructor
  · rintro ⟨name, c, h⟩
    cases (runFrom_run_error r).mp h with
    | taken htaken => exact ⟨_, name, htaken⟩
  · rintro ⟨before, name, h⟩
    exact ⟨name, _, (runFrom_run_error r).mpr (.taken h)⟩

/-- The names of helpers are automatic ones that are still to come. -/
theorem exists_number_of_helper {r : Recipe Extended} {n : ℕ} {x : Variable Extended}
    (hx : x ∈ (r.plan n).helpers) : ∃ k, n < k ∧ x.name = .automatic k := by
  have hbounding : ∀ {s : Relationship} {items : List (Operand Extended)},
      x ∈ (Recipe.Plan.bounding n s items).helpers → ∃ k, n < k ∧ x.name = .automatic k := by
    intro s items hx
    rw [List.mem_singleton.mp hx]
    exact ⟨n + 1, Nat.lt_succ_self n, rfl⟩
  cases r with
  | absolute item =>
    rcases List.mem_pair.mp hx with rfl | rfl
    · exact ⟨n + 1, by omega, rfl⟩
    · exact ⟨n + 2, by omega, rfl⟩
  | largest items => exact hbounding hx
  | smallest items => exact hbounding hx
  | maximizeSmallest items => exact hbounding hx
  | minimizeLargest items => exact hbounding hx

end OneDeclaration

/-! ### Counted names -/

/-- No registered name is an automatic one that is still to come. -/
def CountsNames (b : Builder K L) : Prop :=
  ∀ k, VariableName.automatic k ∈ b.names → k ≤ b.sequence

theorem countsNames_empty : (empty : Builder K L).CountsNames := nofun

namespace CountsNames

variable {b c : Builder K L}

theorem mono (h : b.CountsNames) (hnames : ∀ name ∈ c.names, name ∈ b.names)
    (hsequence : b.sequence ≤ c.sequence) : c.CountsNames :=
  fun k hk => (h k (hnames _ hk)).trans hsequence

theorem not_mem (h : b.CountsNames) {k : ℕ} (hk : b.sequence < k) :
    VariableName.automatic k ∉ b.names :=
  fun hmem => absurd (h k hmem) (Nat.not_le.mpr hk)

theorem rollback (h : b.CountsNames) : (rollback b c).CountsNames := by
  refine h.mono (fun name hname => ?_) le_rfl
  obtain ⟨x, hx, rfl⟩ := List.mem_map.mp hname
  have hkept := (List.mem_filter.mp hx).2
  exact List.contains_iff_mem.mp hkept

end CountsNames

section Operations

variable [Scalar K]

/-- A declaration keeps names counted, unless it registers an automatic name before its time. -/
theorem countsNames_declare {b : Builder K L} (h : b.CountsNames) (kind : VariableKind)
    (name : Option VariableName) (lower upper : Option K)
    (hturn : ∀ k, name = some (.automatic k) →
      .automatic k ∈ (after (declare kind name lower upper) b).names → k ≤ b.sequence) :
    (after (declare kind name lower upper) b).CountsNames := by
  have hused : (b.named name.isSome).CountsNames := by
    cases name with
    | some n => exact h
    | none => exact h.mono (fun _ => id) (Nat.le_succ _)
  unfold after at hturn ⊢
  rw [runFrom_declare] at hturn ⊢
  cases hx : Variable.declare (name.getD b.nextName) kind lower upper with
  | error e => exact hused
  | ok x =>
    rw [hx] at hturn
    simp only [runFrom_register] at hturn ⊢
    by_cases htaken : (b.named name.isSome).names.contains x.name
    · rw [if_pos htaken]
      exact hused
    · rw [if_neg htaken] at hturn ⊢
      intro k hk
      have hname : x.name = name.getD b.nextName := (Variable.isSound_of_declare hx).2.1
      -- the name is one of before or that of the new variable
      have hcases : .automatic k ∈ (b.named name.isSome).names ∨ .automatic k = x.name := by
        simpa [names] using hk
      rcases hcases with hold | hnew
      · exact hused k hold
      · cases name with
        | some n => exact hturn k (by rw [hnew, hname]; rfl) hk
        | none =>
          have hnext : k = b.sequence + 1 := VariableName.automatic_inj.mp (hnew.trans hname)
          exact hnext.le

omit [Scalar K] in
theorem countsNames_of_eq {b c : Builder K L} (h : b.CountsNames) (hvars : c.vars = b.vars)
    (hsequence : c.sequence = b.sequence) : c.CountsNames := by
  refine h.mono (fun name hname => ?_) hsequence.ge
  unfold names at hname ⊢
  rwa [← hvars]

theorem countsNames_relate {b : Builder K L} (h : b.CountsNames) (left right : Operand K)
    (r : Relationship) (explicit : Option L) :
    (after (relate left right r explicit) b).CountsNames := by
  rcases after_relate b left right r explicit with heq | ⟨e, e', -, -, heq⟩
  · rwa [heq]
  · rw [heq]
    exact countsNames_of_eq h rfl rfl

theorem countsNames_setObjective {b : Builder K L} (h : b.CountsNames) (o : Operand K)
    (goal : Goal) : (after (setObjective o goal) b).CountsNames := by
  rcases after_setObjective b o goal with heq | ⟨e, -, heq⟩
  · rwa [heq]
  · rw [heq]
    exact countsNames_of_eq h rfl rfl

/-- The name that an operation is given for a variable. -/
def Operation.givenName? : Operation K L → Option VariableName
  | .declare _ name _ _ => name
  | _ => none

/-- **Every operation keeps names counted**, whether it succeeds or fails, unless it registers an
automatic name before its time. -/
theorem Operation.countsNames (op : Operation K L) {b : Builder K L} (h : b.CountsNames)
    (hturn : ∀ k, op.givenName? = some (.automatic k) →
      .automatic k ∈ (runFrom op.run b).2.names → k ≤ b.sequence) :
    (runFrom op.run b).2.CountsNames := by
  cases op with
  | declare kind name lower upper =>
    have hafter : (runFrom (Operation.declare kind name lower upper).run b).2
        = after (Builder.declare kind name lower upper) b := after_on _ b
    rw [hafter] at hturn ⊢
    exact countsNames_declare h kind name lower upper hturn
  | addConstraint c explicit => exact after_on _ b ▸ countsNames_of_eq h rfl rfl
  | relate left right r explicit => exact after_on _ b ▸ countsNames_relate h left right r explicit
  | setObjective o goal => exact after_on _ b ▸ countsNames_setObjective h o goal
  | reformulate recipe =>
    have hmoves :=
      recipe.moves (R := fun b c : Builder K L => b.CountsNames → c.CountsNames) (fun _ => id)
        (fun _ _ _ hbc hcd hb => hcd (hbc hb))
        (fun kind lower upper _ hb => countsNames_declare hb kind none lower upper nofun)
        (fun left right r _ hb => countsNames_relate hb left right r none)
        (fun o goal _ hb => countsNames_setObjective hb o goal)
    exact after_on _ b ▸ hmoves b h
  | build settings => exact (after_build settings b).symm ▸ h

end Operations

/-! ### Free names -/

/-- Every declaration without a name whose bounds fit returns, under a new name, and no
reformulation is refused for the name of a helper. -/
structure NamesFreely (b : Builder Extended L) : Prop where
  declares : ∀ kind lower upper, Variable.Fits kind lower upper → ∃ x c,
    runFrom (declare kind none lower upper) b = (.ok x, c) ∧ x.name ∉ b.names ∧
      c.vars = b.vars ++ [x]
  reformulates : ∀ (r : Recipe Extended) name c,
    runFrom r.run b ≠ (.error (.duplicateName name), c)

theorem CountsNames.namesFreely {b : Builder Extended L} (h : b.CountsNames) : b.NamesFreely where
  declares kind lower upper hfits := by
    have hfree : b.nextName ∉ b.names := h.not_mem (Nat.lt_succ_self _)
    have hrun := (runFrom_declare_none (b := b) hfits).trans (if_neg hfree)
    exact ⟨_, _, hrun, by rwa [Variable.requested_name], rfl⟩
  reformulates r name c hrun := by
    obtain ⟨x, hx, htaken⟩ := (refused_for_name_iff r).mp ⟨name, c, hrun⟩
    obtain ⟨k, hk, hname⟩ := exists_number_of_helper hx
    rw [hname] at htaken
    exact h.not_mem hk htaken

end Builder

/-! ### Runs -/

/-- The name that a deed is given for a variable. -/
def Deed.givenName? : Deed K L → Option VariableName
  | .operation op => op.givenName?
  | _ => none

/-- If a variable was declared under an automatic name, and the name is registered then, its number
had been given out. -/
def Note.IsInTurn (n : Note K L) : Prop :=
  ∀ k, n.deed.givenName? = some (.automatic k) → .automatic k ∈ n.after.names →
    k ≤ n.before.sequence

/-- Names that are counted stay counted, and are at every note, as long as all that is noted is in
turn. -/
def Diary.CountsNames (s t : Diary K L) : Prop :=
  ∃ new, t.2 = s.2 ++ new ∧ ((∀ n ∈ new, n.IsInTurn) → s.1.CountsNames →
    t.1.CountsNames ∧ ∀ n ∈ new, n.before.CountsNames)

namespace Diary.CountsNames

theorem refl (s : Diary K L) : Diary.CountsNames s s :=
  ⟨[], (List.append_nil _).symm, fun _ h => ⟨h, List.forall_mem_nil _⟩⟩

theorem trans {s t u : Diary K L} (h : Diary.CountsNames s t) (hu : Diary.CountsNames t u) :
    Diary.CountsNames s u := by
  obtain ⟨new, ht, hnew⟩ := h
  obtain ⟨later, hu', hlater⟩ := hu
  refine ⟨new ++ later, by rw [hu', ht, List.append_assoc], fun hturn hs => ?_⟩
  obtain ⟨hturn, hturn'⟩ := List.forall_mem_append.mp hturn
  obtain ⟨htb, hnotes⟩ := hnew hturn hs
  obtain ⟨hub, hnotes'⟩ := hlater hturn' htb
  exact ⟨hub, List.forall_mem_append.mpr ⟨hnotes, hnotes'⟩⟩

theorem note {b c d : Builder K L} {ns ns' : List (Note K L)} {deed : Deed K L}
    {opened : List (Option L)} (h : Diary.CountsNames (b, ns) (c, ns'))
    (hd : Note.IsInTurn ⟨deed, opened, b, d⟩ → b.CountsNames → c.CountsNames → d.CountsNames) :
    Diary.CountsNames (b, ns) (d, ns' ++ [⟨deed, opened, b, d⟩]) := by
  obtain ⟨new, rfl, hnew⟩ := h
  refine ⟨new ++ [⟨deed, opened, b, d⟩], List.append_assoc _ _ _, fun hturn hb => ?_⟩
  obtain ⟨hturn, hlast⟩ := List.forall_mem_append.mp hturn
  obtain ⟨hc, hnotes⟩ := hnew hturn hb
  refine ⟨hd (List.forall_mem_singleton.mp hlast) hb hc, ?_⟩
  exact List.forall_mem_append.mpr ⟨hnotes, List.forall_mem_singleton.mpr hb⟩

end Diary.CountsNames

namespace Client

theorem passes_countsNames [Scalar K] :
    Passes fun _ => Diary.CountsNames (K := K) (L := L) where
  refl _ := .refl
  trans _ _ _ _ h hu := h.trans hu
  operation opened op b ns := (Diary.CountsNames.refl (b, ns)).note fun hturn hb _ =>
    op.countsNames hb hturn
  block opened label b ns c ns' h := by
    have hbody : Diary.CountsNames (b, ns) (c, ns') := h
    exact hbody.note fun _ _ hc => hc
  family opened b ns c ns' h := h.note fun _ _ hc => hc
  failedFamily opened b ns c ns' h := h.note fun _ hb _ => hb.rollback

/-- **When automatic names are free.** On any builder, a declaration without a name whose bounds fit
is refused if the next automatic name is registered, and else registers a variable of that name; and
a reformulation is refused for a name if and only if the name of one of its helpers is registered.
In a run of any client from a builder with counted names, such as an empty one, both succeed at
every point, whatever mixture of operations, blocks and families came before and whichever of them
failed, as long as no variable was registered under an automatic name before its time. -/
theorem automatic_names_free [Key κ] [Interruptible ε] :
    (∀ (b : Builder Extended L) (kind : VariableKind) (lower upper : Option Extended),
      Variable.Fits kind lower upper →
      runFrom (Builder.declare kind none lower upper) b
        = if b.nextName ∈ b.names then
            (.error (.duplicateName b.nextName), { b with sequence := b.sequence + 1 })
          else
            (.ok (.requested b.nextName kind lower upper),
              { b with
                sequence := b.sequence + 1
                vars := b.vars ++ [.requested b.nextName kind lower upper] })) ∧
    (∀ (b : Builder Extended L) (r : Recipe Extended),
      (∃ name c, runFrom r.run b = (.error (.duplicateName name), c)) ↔
        ∃ x ∈ (r.plan b.sequence).helpers, x.name ∈ b.names) ∧
    ∀ (p : Client Extended L κ ε α) (b : Builder Extended L), b.CountsNames →
      (∀ n ∈ p.notes b, n.IsInTurn) →
      (p.leaves b).NamesFreely ∧ ∀ n ∈ p.notes b, n.before.NamesFreely := by
  refine ⟨fun b kind lower upper h => Builder.runFrom_declare_none h,
    fun b r => Builder.refused_for_name_iff r, fun p b hb hturn => ?_⟩
  obtain ⟨new, hnotes, hnew⟩ := passes_countsNames.moves p [] (b, [])
  have hall : p.notes b = new := hnotes
  rw [hall] at hturn ⊢
  obtain ⟨hend, hpoints⟩ := hnew hturn hb
  exact ⟨hend.namesFreely, fun n hn => (hpoints n hn).namesFreely⟩

/-- Declares a variable without a name; declares `x1`, which is refused; a family whose members are
declared without names, which gives up at the second; a declaration that is refused for its bound;
`x2`, whose number that one has used up; `y`; and an absolute value with two helpers. -/
def mixed : Client Extended String PlainKey Outage Unit := do
  let nameless := Client.perform (.declare .numeric none none none)
  let named := fun name : VariableName => Client.perform (.declare .integer (some name) none none)
  let _ ← nameless
  let _ ← named (.automatic 1)
  let _ ← Client.attempt (.family (pure [[.text "a", .text "b"]]) (pure fun _ => .error "refused")
    (fun keys => pure (familyName "z" (keys.map fun
      | .text t => t
      | _ => ""))) fun name => do
        let _ ← nameless
        if name = "z_b" then .fail (.error "enough"))
  let _ ← Client.perform (.declare .numeric none (some .notANumber) none)
  let _ ← named (.automatic 2)
  let _ ← named ⟨"y", by decide⟩
  let _ ← Client.perform (.reformulate (.absolute (.number (.rational 1))))

/-- The names given are `x1`, `x2` and `y`, the automatic ones of which are in turn. -/
theorem mixed_isInTurn : ∀ n ∈ mixed.notes .empty, n.IsInTurn := by
  have hgiven : (mixed.notes .empty).map (fun n => (n.deed.givenName?, n.before.sequence))
      = [(none, 0), (some (.automatic 1), 1), (none, 1), (none, 2), (none, 1), (none, 1),
        (some (.automatic 2), 2), (some ⟨"y", by decide⟩, 2), (none, 2)] := by decide +kernel
  intro n hn k hname _
  have hmem := List.mem_map_of_mem (f := fun n => (n.deed.givenName?, n.before.sequence)) hn
  rw [hgiven, hname] at hmem
  simp only [List.mem_cons, Prod.mk.injEq, reduceCtorEq, false_and, false_or,
    Option.some.injEq, VariableName.automatic_inj, List.not_mem_nil, or_false] at hmem
  rcases hmem with ⟨rfl, h⟩ | ⟨rfl, h⟩ | ⟨hy, -⟩
  · exact h.ge
  · exact h.ge
  · have hfirst := congrArg (fun name : VariableName => name.text.toList.head?) hy
    simp [VariableName.automatic] at hfirst

/-- Five variables are left, the next names are free at every point, and a boolean variable gets
the one after `x4`. -/
theorem mixed_names_free : (∀ n ∈ mixed.notes .empty, n.IsInTurn) ∧
    (mixed.leaves .empty).names.map (·.text) = ["x1", "x2", "y", "x3", "x4"] ∧
    ((mixed.leaves .empty).NamesFreely ∧ ∀ n ∈ mixed.notes .empty, n.before.NamesFreely) ∧
    ∃ c, runFrom (Builder.declare .boolean none none none) (mixed.leaves .empty)
      = (.ok (.requested (.automatic 5) .boolean none none), c) := by
  have hall := automatic_names_free (L := String) (κ := PlainKey) (ε := Outage) (α := Unit)
  have hfits : Variable.Fits (K := Extended) .boolean none none := ⟨rfl, rfl⟩
  have hfree : (mixed.leaves .empty).nextName ∉ (mixed.leaves .empty).names := by decide +kernel
  have hnext : (mixed.leaves .empty).nextName = .automatic 5 := by decide +kernel
  refine ⟨mixed_isInTurn, by decide +kernel, ?_, ?_⟩
  · exact hall.2.2 mixed .empty Builder.countsNames_empty mixed_isInTurn
  · rw [hall.1 _ _ _ _ hfits, if_neg hfree, hnext]
    exact ⟨_, rfl⟩

end Client

namespace Builder

/-- A builder with a variable that was given the first automatic name. -/
def forestalled : Builder Extended String :=
  after (declare .numeric (VariableName.ofText? "x1") none none) empty

/-- A declaration without a name is refused there, and so is the largest of no operands. -/
theorem forestalled_name_refused : forestalled.Reachable ∧
    (∃ c, runFrom (declare .numeric none none none) forestalled
      = (.error (.duplicateName ⟨"x1", by decide⟩), c)) ∧
    ∃ c, runFrom (Recipe.largest []).run forestalled
      = (.error (.duplicateName ⟨"x1", by decide⟩), c) :=
  ⟨.step (.refl _) (.declare _ _ _ _ _), ⟨_, rfl⟩, _, rfl⟩

end Builder
end LinModel
