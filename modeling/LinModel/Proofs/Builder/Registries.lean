import LinModel.Proofs.Builder.Histories

/-!
# Registries only grow

A builder grows to another if the variables and the constraints of the first come first in the
second, as they were, and names that were different still are. Every operation makes a builder grow,
whether it succeeds or fails, and opening or closing a block leaves the registries alone. A family
that fails takes variables away, but none that were there when it began: these come first, and their
names are the ones that stay (`Builder.GrowsTo.rollback`). So in every run of every client, all that
is noted makes the builder grow, and a variable is found by its name at every point
(`Client.registries_grow`).

Key definitions: `Builder.GrowsTo`, `Builder.IsRegistry`, `Diary.GrowsTo`.
Key theorems: `Builder.isRegistry_iff`, `Builder.Operation.growsTo`, `Builder.GrowsTo.rollback`,
`Client.registries_grow`.
-/
namespace LinModel

variable {K L κ ε α : Type}

namespace Builder

/-- Every variable is found under its own name and under no other, and no other text is found. -/
structure IsRegistry (b : Builder K L) : Prop where
  nodup : b.names.Nodup
  found : ∀ name x, b.variable name = .ok x ↔ x ∈ b.vars ∧ x.name.text = name
  unknown : ∀ name e,
    b.variable name = .error e ↔ e = ⟨name⟩ ∧ ∀ x ∈ b.vars, x.name.text ≠ name

section Lookup

variable {b : Builder K L} {name : String}

/-- What is found is registered under the name. -/
theorem of_variable_eq_ok {x : Variable K} (h : b.variable name = .ok x) :
    x ∈ b.vars ∧ x.name.text = name := by
  unfold Builder.variable at h
  cases hfind : b.vars.find? (·.name.text == name) with
  | some v =>
    rw [hfind] at h
    cases h
    exact ⟨List.mem_of_find?_eq_some hfind, by simpa using List.find?_some hfind⟩
  | none =>
    rw [hfind] at h
    cases h

theorem variable_eq_error {e : UnregisteredName} :
    b.variable name = .error e ↔ e = ⟨name⟩ ∧ ∀ x ∈ b.vars, x.name.text ≠ name := by
  have hnone : b.vars.find? (·.name.text == name) = none ↔ ∀ x ∈ b.vars, x.name.text ≠ name := by
    simp [List.find?_eq_none]
  rw [← hnone]
  unfold Builder.variable
  cases b.vars.find? (·.name.text == name) with
  | some v => exact iff_of_false nofun nofun
  | none =>
    constructor
    · rintro ⟨⟩
      exact ⟨rfl, rfl⟩
    · rintro ⟨rfl, -⟩
      rfl

/-- **Different names are enough to find every variable.** -/
theorem isRegistry_iff : b.IsRegistry ↔ b.names.Nodup := by
  refine ⟨IsRegistry.nodup, fun h => ?_⟩
  constructor
  case nodup => exact h
  case unknown => exact fun name e => variable_eq_error
  case found =>
    refine fun name x => ⟨of_variable_eq_ok, ?_⟩
    rintro ⟨hx, hname⟩
    cases hfound : b.variable name with
    | error e => exact absurd hname ((variable_eq_error.mp hfound).2 x hx)
    | ok v =>
      obtain ⟨hv, htext⟩ := of_variable_eq_ok hfound
      have hsame : v.name = x.name := VariableName.eq_of_text_eq (htext.trans hname.symm)
      rw [List.inj_on_of_nodup_map h hv hx hsame]

end Lookup

/-! ### Builders that grow -/

/-- What is registered stays, in its place and as it is, and names that are different stay so. -/
structure GrowsTo (b c : Builder K L) : Prop where
  vars : b.vars <+: c.vars
  constraints : b.constraints <+: c.constraints
  nodup : b.names.Nodup → c.names.Nodup

namespace GrowsTo

variable {b c d : Builder K L}

theorem refl (b : Builder K L) : b.GrowsTo b := ⟨List.prefix_rfl, List.prefix_rfl, id⟩

theorem trans (h : b.GrowsTo c) (hd : c.GrowsTo d) : b.GrowsTo d where
  vars := h.vars.trans hd.vars
  constraints := h.constraints.trans hd.constraints
  nodup hb := hd.nodup (h.nodup hb)

/-- A block leaves the registries alone, when it is opened and when it is closed. -/
theorem of_block {label label' : Option L} (h : { b with block := label }.GrowsTo c) :
    b.GrowsTo { c with block := label' } := ⟨h.vars, h.constraints, h.nodup⟩

theorem addVariable {x : Variable K} (hx : x.name ∉ b.names) (n : ℕ) :
    b.GrowsTo { b with sequence := n, vars := b.vars ++ [x] } where
  vars := List.prefix_append _ _
  constraints := List.prefix_rfl
  nodup hb := by
    have hnames : (b.names ++ [x.name]).Nodup :=
      List.nodup_append_comm.mp (List.nodup_cons.mpr ⟨hx, hb⟩)
    unfold names
    rw [List.map_append]
    exact hnames

/-- **What is rolled back keeps what was there before.** -/
theorem rollback (h : b.GrowsTo c) : b.GrowsTo (rollback b c) where
  vars := by
    obtain ⟨new, hvars⟩ := h.vars
    unfold Builder.rollback
    simp only
    rw [← hvars, List.filter_append, filter_registered]
    exact List.prefix_append _ _
  constraints := h.constraints
  nodup hb := (h.nodup hb).sublist (List.filter_sublist.map _)

end GrowsTo

section Operations

variable [Scalar K]

theorem growsTo_declare (kind : VariableKind) (name : Option VariableName)
    (lower upper : Option K) :
    Moves GrowsTo (declare kind name lower upper : BuilderM K L (Variable K)) :=
  moves_declare (fun _ _ => ⟨List.prefix_rfl, List.prefix_rfl, id⟩)
    (fun _ n _ hx => .addVariable hx n) kind name lower upper

omit [Scalar K] in
theorem growsTo_addConstraint (c : Constraint K L) (explicit : Option L) :
    Moves GrowsTo (addConstraint c explicit) :=
  fun _ => ⟨List.prefix_rfl, List.prefix_append _ _, id⟩

theorem growsTo_relate (left right : Operand K) (r : Relationship) (explicit : Option L) :
    Moves GrowsTo (relate left right r explicit) := by
  intro b
  show b.GrowsTo (after (relate left right r explicit) b)
  rcases after_relate b left right r explicit with h | ⟨e, e', -, -, h⟩
  · rw [h]
    exact .refl b
  · rw [h]
    exact growsTo_addConstraint _ explicit b

theorem growsTo_setObjective (o : Operand K) (goal : Goal) :
    Moves GrowsTo (setObjective o goal : BuilderM K L _) :=
  moves_setObjective .refl (fun _ _ => ⟨List.prefix_rfl, List.prefix_rfl, id⟩) o goal

/-- **Every operation makes a builder grow**, whether it succeeds or fails. -/
theorem Operation.growsTo (op : Operation K L) : Moves GrowsTo op.run := by
  intro b
  cases op with
  | declare kind name lower upper =>
    exact after_on _ b ▸ growsTo_declare kind name lower upper b
  | addConstraint c explicit => exact after_on _ b ▸ growsTo_addConstraint c explicit b
  | relate left right r explicit => exact after_on _ b ▸ growsTo_relate left right r explicit b
  | setObjective o goal => exact after_on _ b ▸ growsTo_setObjective o goal b
  | reformulate recipe =>
    have h : Moves GrowsTo (recipe.run : BuilderM K L Unit) :=
      recipe.moves .refl (fun _ _ _ h hd => h.trans hd) (fun kind => growsTo_declare kind none)
        (fun left right r => growsTo_relate left right r none) growsTo_setObjective
    exact after_on _ b ▸ h b
  | build settings => exact (after_build settings b).symm ▸ .refl b

end Operations

end Builder

/-! ### Runs -/

/-- The builder of a diary grows, and what is noted makes it grow from where it was. -/
structure Diary.GrowsTo (s t : Diary K L) : Prop where
  builder : s.1.GrowsTo t.1
  notes : ∃ new, t.2 = s.2 ++ new ∧ ∀ n ∈ new, s.1.GrowsTo n.before ∧ n.before.GrowsTo n.after

namespace Diary.GrowsTo

theorem refl (s : Diary K L) : Diary.GrowsTo s s :=
  ⟨.refl s.1, [], (List.append_nil _).symm, List.forall_mem_nil _⟩

theorem trans {s t u : Diary K L} (h : Diary.GrowsTo s t) (hu : Diary.GrowsTo t u) :
    Diary.GrowsTo s u := by
  obtain ⟨new, ht, hnew⟩ := h.notes
  obtain ⟨later, hu', hlater⟩ := hu.notes
  refine ⟨h.builder.trans hu.builder, new ++ later, ?_, ?_⟩
  · rw [hu', ht, List.append_assoc]
  · intro n hn
    rcases List.mem_append.mp hn with hn | hn
    · exact hnew n hn
    · exact (hlater n hn).imp_left h.builder.trans

/-- A note may be added of what the builder has become since the start. -/
theorem note {b c d : Builder K L} {ns ns' : List (Note K L)}
    (h : Diary.GrowsTo (b, ns) (c, ns')) (hd : b.GrowsTo d) (deed : Deed K L)
    (opened : List (Option L)) :
    Diary.GrowsTo (b, ns) (d, ns' ++ [⟨deed, opened, b, d⟩]) := by
  obtain ⟨new, rfl, hnew⟩ := h.notes
  refine ⟨hd, new ++ [⟨deed, opened, b, d⟩], List.append_assoc _ _ _, ?_⟩
  intro n hn
  rcases List.mem_append.mp hn with hn | hn
  · exact hnew n hn
  · rw [List.mem_singleton.mp hn]
    exact ⟨.refl b, hd⟩

end Diary.GrowsTo

namespace Client

variable [Scalar K]

theorem passes_growsTo : Passes fun _ => Diary.GrowsTo (K := K) (L := L) where
  refl _ := .refl
  trans _ _ _ _ h hu := h.trans hu
  operation opened op b ns := (Diary.GrowsTo.refl (b, ns)).note (op.growsTo b) _ opened
  block opened label b ns c ns' h := by
    have hstart : Diary.GrowsTo (b, ns) ({ c with block := b.block }, ns') := by
      obtain ⟨new, hns, hnew⟩ := h.notes
      exact ⟨h.builder.of_block, new, hns, fun n hn => (hnew n hn).imp_left .of_block⟩
    exact hstart.note hstart.builder _ opened
  family opened b ns c ns' h := h.note h.builder _ opened
  failedFamily opened b ns c ns' h := h.note h.builder.rollback _ opened

/-- **Registries only grow.** Let a client run from a builder with different names, such as an empty
one. However it uses operations, blocks and families, and whichever of them fail, the registered
variables and constraints of before each of them come first, as they were, after it, and before and
after each of them, and at the end, the names are different, and a text finds the variable of that
name, or none if there is none. -/
theorem registries_grow [Key κ] [Interruptible ε] (p : Client K L κ ε α) {b : Builder K L}
    (hb : b.names.Nodup) : b.GrowsTo (p.leaves b) ∧ (p.leaves b).IsRegistry ∧
      ∀ n ∈ p.notes b, n.before.GrowsTo n.after ∧ n.before.IsRegistry ∧ n.after.IsRegistry := by
  have h := passes_growsTo.moves p [] (b, [])
  obtain ⟨new, hnotes, hnew⟩ := h.notes
  refine ⟨h.builder, Builder.isRegistry_iff.mpr (h.builder.nodup hb), fun n hn => ?_⟩
  have hmem : n ∈ new := by
    rw [notes, hnotes] at hn
    exact hn
  -- whatever is noted began from a builder that had grown from `b`, so with different names
  obtain ⟨hbefore, hafter⟩ := hnew n hmem
  have hdifferent := hbefore.nodup hb
  exact ⟨hafter, Builder.isRegistry_iff.mpr hdifferent,
    Builder.isRegistry_iff.mpr (hafter.nodup hdifferent)⟩

/-- Declares `x`, and in a block a family that registers a constraint beside each member and gives
up at the second; declares `x` again, which is refused; and bounds 1 by a helper. -/
def troubled : Client Extended String PlainKey Outage Unit := do
  let one : Operand Extended := .number (Extended.rational 1)
  let declared := fun name : String =>
    Client.perform (.declare .numeric (VariableName.ofText? name) none none)
  let _ ← declared "x"
  let _ ← Client.attempt (.block (some "cap") (.family (pure [[.text "a", .text "b"]])
    (pure fun _ => .error "refused")
    (fun keys => pure (familyName "y" (keys.map fun
      | .text t => t
      | _ => ""))) fun name => do
        let _ ← declared name
        let _ ← Client.perform (.relate one one .le none)
        if name = "y_b" then .fail (.error "enough")))
  let _ ← declared "x"
  let _ ← Client.perform (.reformulate (.largest [one]))

/-- Nine notes are taken; `x` and the helper are left, and three constraints. -/
theorem troubled_grows : (Builder.empty : Builder Extended String).names.Nodup ∧
    (troubled.notes .empty).length = 9 ∧ (troubled.leaves .empty).vars.length = 2 ∧
    (troubled.leaves .empty).constraints.length = 3 ∧ (troubled.leaves .empty).IsRegistry ∧
    ∀ n ∈ troubled.notes .empty,
      n.before.GrowsTo n.after ∧ n.before.IsRegistry ∧ n.after.IsRegistry :=
  ⟨List.nodup_nil, by decide +kernel, by decide +kernel, by decide +kernel,
    (registries_grow troubled (b := .empty) List.nodup_nil).2⟩

end Client
end LinModel
