import LinModel.Proofs.Builder.Histories

/-!
# Blocks label constraints by nesting

A constraint that is registered gets the explicit label if there is one, else its own, else the
default of the builder (`Builder.relabel_eq`). The default is the label of the innermost block that
is open: a block sets it for its body and puts the old one back, however the body ends. So in every
run of every client the default is known from the nesting alone, and with it the labels. What is
registered is only ever added behind what was there, so at every point the constraints are those of
the operations so far, in order, with the labels they got (`Client.blocks_label_constraints`).

Key definitions: `Builder.Operation.Registers`, `Note.added`, `Note.IsAccounted`, `Accounted`.
Key theorems: `Builder.relabel_eq`, `Builder.Operation.adds`, `Client.blocks_label_constraints`.
-/
namespace LinModel

variable {K L κ ε α : Type}

namespace Builder

/-- Registering gives a constraint the explicit label, or its own, or the default. -/
theorem relabel_eq (b : Builder K L) (c : Constraint K L) (explicit : Option L) :
    b.relabel c explicit = { c with label := (explicit.or c.label).or b.block } := by
  obtain ⟨left, right, r, label⟩ := c
  unfold relabel labelFor
  cases explicit with
  | some l => rfl
  | none =>
    cases label with
    | some l => rfl
    | none => cases b.block <;> rfl

/-! ### Operations -/

/-- The default label stays, and of the constraints that are added `P` holds under that default. -/
def Adds (P : Option L → List (Constraint K L) → Prop) (b c : Builder K L) : Prop :=
  c.block = b.block ∧ ∃ added, c.constraints = b.constraints ++ added ∧ P b.block added

/-- The constraints carry the default label. -/
def CarryDefault (default : Option L) (added : List (Constraint K L)) : Prop :=
  ∀ k ∈ added, k.label = default

section Adding

variable {P : Option L → List (Constraint K L) → Prop} {b c d : Builder K L}

theorem Adds.of_kept (hblock : c.block = b.block) (hconstraints : c.constraints = b.constraints)
    (hP : P b.block []) : Adds P b c :=
  ⟨hblock, [], hconstraints.trans (List.append_nil _).symm, hP⟩

theorem Adds.refl (b : Builder K L) : Adds CarryDefault b b :=
  .of_kept rfl rfl (List.forall_mem_nil _)

theorem Adds.trans (h : Adds CarryDefault b c) (hd : Adds CarryDefault c d) :
    Adds CarryDefault b d := by
  obtain ⟨hblock, added, hc, hadded⟩ := h
  obtain ⟨hblock', added', hd, hadded'⟩ := hd
  refine ⟨hblock'.trans hblock, added ++ added', ?_, List.forall_mem_append.mpr ⟨hadded, ?_⟩⟩
  · rw [hd, hc, List.append_assoc]
  · exact fun k hk => (hadded' k hk).trans hblock

end Adding

variable [Scalar K]

/-- The constraints that an operation registers while a label is the default. -/
def Operation.Registers (default : Option L) (added : List (Constraint K L)) :
    Operation K L → Prop
  | .addConstraint c explicit => added = [{ c with label := (explicit.or c.label).or default }]
  | .relate left right r explicit =>
    match left.toExpression, right.toExpression with
    | .ok e, .ok e' => added = [⟨e, e', r, explicit.or default⟩]
    | _, _ => added = []
  | .reformulate _ => CarryDefault default added
  | .declare .. | .setObjective .. | .build _ => added = []

theorem adds_declare {P : Option L → List (Constraint K L) → Prop} (hP : ∀ default, P default [])
    (kind : VariableKind) (name : Option VariableName) (lower upper : Option K) :
    Moves (Adds P) (declare kind name lower upper) :=
  moves_declare (fun _ _ => .of_kept rfl rfl (hP _)) (fun _ _ _ _ => .of_kept rfl rfl (hP _))
    kind name lower upper

theorem adds_setObjective {P : Option L → List (Constraint K L) → Prop}
    (hP : ∀ default, P default []) (o : Operand K) (goal : Goal) :
    Moves (Adds P) (setObjective o goal) :=
  moves_setObjective (fun _ => .of_kept rfl rfl (hP _)) (fun _ _ => .of_kept rfl rfl (hP _)) o goal

theorem adds_addConstraint (c : Constraint K L) (explicit : Option L) :
    Moves (Adds ((Operation.addConstraint c explicit).Registers · ·)) (addConstraint c explicit) :=
  fun b => ⟨rfl, [b.relabel c explicit], rfl, congrArg (fun k => [k]) (relabel_eq b c explicit)⟩

/-- Relating registers a constraint between the expressions that both operands stand for. -/
theorem adds_relate (left right : Operand K) (r : Relationship) (explicit : Option L) :
    Moves (Adds ((Operation.relate left right r explicit).Registers · ·))
      (relate left right r explicit) := by
  intro b
  unfold Operation.Registers relate
  simp only [runFrom_bind, runFrom_expressionOf]
  cases left.toExpression with
  | error x => exact .of_kept rfl rfl rfl
  | ok e =>
    cases right.toExpression with
    | error x => exact .of_kept rfl rfl rfl
    | ok e' =>
      refine ⟨rfl, [b.relabel ⟨e, e', r, none⟩ explicit], rfl, ?_⟩
      show [b.relabel ⟨e, e', r, none⟩ explicit] = [⟨e, e', r, explicit.or b.block⟩]
      rw [relabel_eq, Option.or_none]

/-- Without an explicit label, relating gives the default. -/
theorem Operation.Registers.carryDefault {left right : Operand K} {r : Relationship}
    {default : Option L} {added : List (Constraint K L)}
    (h : (Operation.relate left right r none).Registers default added) :
    CarryDefault default added := by
  have hnone : added = [] → CarryDefault default added := by
    rintro rfl
    exact List.forall_mem_nil _
  rw [Registers] at h
  cases hl : left.toExpression with
  | error x =>
    rw [hl] at h
    exact hnone h
  | ok e =>
    cases hr : right.toExpression with
    | error x =>
      rw [hl, hr] at h
      exact hnone h
    | ok e' =>
      rw [hl, hr] at h
      simp only [Option.none_or] at h
      rw [h]
      exact List.forall_mem_singleton.mpr rfl

/-- **What an operation registers**, whether it succeeds or fails. -/
theorem Operation.adds (op : Operation K L) : Moves (Adds (op.Registers · ·)) op.run := by
  intro b
  cases op with
  | declare kind name lower upper =>
    have h := adds_declare (P := (Registers · · (declare kind name lower upper))) (fun _ => rfl)
      kind name lower upper b
    exact after_on _ b ▸ h
  | addConstraint c explicit =>
    exact after_on _ b ▸ adds_addConstraint c explicit b
  | relate left right r explicit =>
    exact after_on _ b ▸ adds_relate left right r explicit b
  | setObjective o goal =>
    have h := adds_setObjective (P := (Registers · · (setObjective o goal))) (fun _ => rfl) o goal b
    exact after_on _ b ▸ h
  | reformulate recipe =>
    have hrelate : ∀ left right r,
        Moves (Adds CarryDefault) (Builder.relate left right r none : BuilderM K L _) :=
      fun left right r b => (adds_relate left right r none b).imp_right fun ⟨added, hc, h⟩ =>
        ⟨added, hc, h.carryDefault⟩
    have h : Moves (Adds CarryDefault) (recipe.run : BuilderM K L Unit) :=
      recipe.moves .refl (fun _ _ _ => .trans)
        (fun kind => adds_declare (fun _ => List.forall_mem_nil _) kind none) hrelate
        (adds_setObjective fun _ => List.forall_mem_nil _)
    exact after_on _ b ▸ h b
  | build settings => exact (after_build settings b).symm ▸ .of_kept rfl rfl rfl

end Builder

/-! ### Runs -/

/-- The constraints that were registered by what is noted; those that are registered in a block or
for a family are in the notes of their operations. -/
def Note.added (n : Note K L) : List (Constraint K L) :=
  match n.deed with
  | .operation _ => n.after.constraints.drop n.before.constraints.length
  | _ => []

/-- What a note says, where `outer` is the default outside the blocks of the client and `cs` are the
constraints from before. -/
structure Note.IsAccounted [Scalar K] (outer : Option L) (cs : List (Constraint K L))
    (n : Note K L) : Prop where
  /-- The default is the label of the innermost open block. -/
  before : n.before.block = n.openBlocks.headD outer
  /-- The default is the one in force before. -/
  after : n.after.block = n.before.block
  constraints : n.after.constraints = cs ++ n.added
  operation : ∀ op, n.deed = .operation op →
    n.before.constraints = cs ∧ op.Registers (n.openBlocks.headD outer) n.added

/-- Every note of a list is accounted for, from some constraints on. -/
def Accounted [Scalar K] (outer : Option L) : List (Constraint K L) → List (Note K L) → Prop
  | _, [] => True
  | cs, n :: ns => n.IsAccounted outer cs ∧ Accounted outer (cs ++ n.added) ns

section Accounts

variable [Scalar K] {outer : Option L}

theorem accounted_append : ∀ {cs : List (Constraint K L)} {ns ns' : List (Note K L)},
    Accounted outer cs (ns ++ ns') ↔
      Accounted outer cs ns ∧ Accounted outer (cs ++ ns.flatMap Note.added) ns'
  | cs, [], ns' => by
    rw [List.nil_append, List.flatMap_nil, List.append_nil, Accounted, true_and]
  | cs, n :: ns, ns' => by
    rw [List.cons_append, Accounted, accounted_append, Accounted, List.flatMap_cons,
      List.append_assoc, and_assoc]

omit [Scalar K] in
theorem Note.added_eq_nil {n : Note K L} (hdeed : ∀ op, n.deed ≠ .operation op) : n.added = [] := by
  unfold Note.added
  cases h : n.deed with
  | operation op => exact absurd h (hdeed op)
  | block label => rfl
  | family => rfl

/-- From one diary to a later one, the default stays, and all that was registered is accounted
for. -/
structure Diary.IsAccounted (outer : Option L) (s t : Diary K L) : Prop where
  block : t.1.block = s.1.block
  notes : ∃ new, t.2 = s.2 ++ new ∧ t.1.constraints = s.1.constraints ++ new.flatMap Note.added ∧
    Accounted outer s.1.constraints new

namespace Diary.IsAccounted

theorem refl (s : Diary K L) : Diary.IsAccounted outer s s :=
  ⟨rfl, [], (List.append_nil _).symm, (List.append_nil _).symm, trivial⟩

theorem trans {s t u : Diary K L} (h : Diary.IsAccounted outer s t)
    (hu : Diary.IsAccounted outer t u) : Diary.IsAccounted outer s u := by
  obtain ⟨new, ht, hconstraints, hnew⟩ := h.notes
  obtain ⟨later, hu', hconstraints', hlater⟩ := hu.notes
  refine ⟨hu.block.trans h.block, new ++ later, ?_, ?_, ?_⟩
  · rw [hu', ht, List.append_assoc]
  · rw [hconstraints', hconstraints, List.flatMap_append, List.append_assoc]
  · rw [hconstraints] at hlater
    exact accounted_append.mpr ⟨hnew, hlater⟩

variable {opened : List (Option L)} {b c d : Builder K L} {ns ns' : List (Note K L)}

theorem operation (hopened : b.block = opened.headD outer) (op : Builder.Operation K L) :
    Diary.IsAccounted outer (b, ns) ((runFrom op.run b).2,
      ns ++ [⟨.operation op, opened, b, (runFrom op.run b).2⟩]) := by
  obtain ⟨hblock, added, hconstraints, hadded⟩ := op.adds b
  -- as the new constraints come last, they are what is left without the old ones
  let n : Note K L := ⟨.operation op, opened, b, (runFrom op.run b).2⟩
  have hn : n.added = added := by
    show (runFrom op.run b).2.constraints.drop b.constraints.length = added
    rw [hconstraints, List.drop_left]
  refine ⟨hblock, [n], rfl, ?_, ?_, trivial⟩
  · rw [List.flatMap_singleton, hn]
    exact hconstraints
  · constructor
    case before => exact hopened
    case after => exact hblock
    case constraints => rw [hn]; exact hconstraints
    case operation =>
      rintro _ ⟨⟩
      rw [hn, ← hopened]
      exact ⟨rfl, hadded⟩

/-- What was registered in a block or for a family is still there, and nothing else, when it is
over. -/
theorem close {start : Builder K L} {deed : Deed K L}
    (h : Diary.IsAccounted outer (start, ns) (c, ns')) (hopened : b.block = opened.headD outer)
    (hstart : start.constraints = b.constraints) (hend : d.constraints = c.constraints)
    (hblock : d.block = b.block) (hdeed : ∀ op, deed ≠ .operation op) :
    Diary.IsAccounted outer (b, ns) (d, ns' ++ [⟨deed, opened, b, d⟩]) := by
  obtain ⟨new, hnotes, hconstraints, hnew⟩ := h.notes
  simp only at hnotes hconstraints hnew
  let n : Note K L := ⟨deed, opened, b, d⟩
  have hn : n.added = [] := n.added_eq_nil hdeed
  rw [hstart] at hconstraints hnew
  refine ⟨hblock, new ++ [n], ?_, ?_, accounted_append.mpr ⟨hnew, ?_, trivial⟩⟩
  · rw [hnotes, List.append_assoc]
  · rw [List.flatMap_append, List.flatMap_singleton, hn, List.append_nil, hend]
    exact hconstraints
  · constructor
    case before => exact hopened
    case after => exact hblock
    case constraints => rw [hn, List.append_nil]; exact hend.trans hconstraints
    case operation => exact fun op h => absurd h (hdeed op)

end Diary.IsAccounted

/-- From the notes on, every note is accounted for by the constraints from before and those that the
notes before it added. -/
theorem Accounted.note {cs : List (Constraint K L)} {earlier later : List (Note K L)}
    {n : Note K L} (h : Accounted outer cs (earlier ++ n :: later)) :
    n.IsAccounted outer (cs ++ earlier.flatMap Note.added) := by
  obtain ⟨-, hn, -⟩ := accounted_append.mp h
  exact hn

end Accounts

namespace Client

variable [Scalar K]

/-- Inside open blocks, if the default is the label of the innermost. -/
theorem passes_isAccounted (outer : Option L) : Passes (K := K) fun opened s t =>
    s.1.block = opened.headD outer → Diary.IsAccounted outer s t where
  refl opened s _ := .refl s
  trans opened s t u h hu hopened := by
    have hfirst := h hopened
    exact hfirst.trans (hu (hfirst.block.trans hopened))
  operation opened op b ns hopened := .operation hopened op
  block opened label b ns c ns' h hopened :=
    (h rfl).close hopened rfl rfl rfl fun _ h => nomatch h
  family opened b ns c ns' h hopened :=
    (h hopened).close hopened rfl rfl (h hopened).block fun _ h => nomatch h
  failedFamily opened b ns c ns' h hopened :=
    (h hopened).close hopened rfl rfl (h hopened).block fun _ h => nomatch h

/-- **Blocks label constraints by nesting.** Let a client run from a builder, and whichever of its
operations, blocks and families fail. The default label is in the end what it was, and so it is
after each of them; while it is carried out it is the label of the innermost block that is open, and
the one from the start outside all blocks. The constraints after each of them are those from the
start and those that the operations so far have registered, in order, each with its explicit label,
or else its own, or else the default at that moment. -/
theorem blocks_label_constraints [Key κ] [Interruptible ε] (p : Client K L κ ε α)
    (b : Builder K L) : (p.leaves b).block = b.block ∧
      (p.leaves b).constraints = b.constraints ++ (p.notes b).flatMap Note.added ∧
      ∀ earlier n later, p.notes b = earlier ++ n :: later →
        n.IsAccounted b.block (b.constraints ++ earlier.flatMap Note.added) := by
  have h := (passes_isAccounted b.block).moves p [] (b, []) rfl
  obtain ⟨new, hnotes, hconstraints, hnew⟩ := h.notes
  have hall : p.notes b = new := hnotes
  refine ⟨h.block, ?_, fun earlier n later hn => ?_⟩
  · rw [hall]
    exact hconstraints
  · rw [hall.symm.trans hn] at hnew
    exact hnew.note

/-- Registers constraints in a block with an inner one that fails and one without a label. -/
def nested : Client Extended String PlainKey Outage Unit := do
  let c : Constraint Extended String := ⟨.empty, .empty, .eq, none⟩
  let add := fun (label explicit : Option String) =>
    Client.perform (.addConstraint { c with label := label } explicit)
  .block (some "outer") do
    let _ ← add none none
    let _ ← Client.attempt (.block (some "inner") (do
      let _ ← add none none
      let _ ← add (some "own") none
      let _ ← add (some "own") (some "given")
      .fail (.error "enough")) : Client Extended String PlainKey Outage Unit)
    let _ ← add none none
    .block none do
      let _ ← add none none
  let _ ← add none none

example : (nested.leaves .empty).constraints.map (·.label) =
    [some "outer", some "inner", some "own", some "given", some "outer", none, none] := by
  decide +kernel

end Client
end LinModel
