import LinModel.Builder.Family
import LinModel.Proofs.Expression.Sound
import LinModel.Proofs.Programs

/-!
# What holds of every builder

A builder comes from the empty one by declarations, registrations and objectives, each with sound
operands, and by opening and closing blocks; a step that fails counts with the state it leaves. A
declaration of a family that fails takes its variables back: it goes from a builder to another and
is rolled back to the first (`Reaches.undo`).

Every builder that is reached has sound variables of different names and holds sound constraints
and a sound objective (`Reachable.isSound`). The steps keep this one by one (`Step.isSound`).

Key definitions: `Builder.IsSound`, `Builder.Step`, `Builder.Reaches`, `Builder.Reachable`.
Key theorems: `Variable.isSound_of_declare`, `Builder.Step.isSound`, `Builder.Reachable.isSound`.
-/
namespace LinModel

variable {K L : Type} [Scalar K]

/-! ### Sound parts -/

/-- Booleans are bounded by zero and one, the bounds of others are neither NaN nor inverted. -/
structure Variable.IsSound (x : Variable K) : Prop where
  boolean : x.kind = .boolean → x.lower = Scalar.zero ∧ x.upper = Scalar.one
  ordered : x.kind ≠ .boolean →
    Scalar.isNaN x.lower = false ∧ Scalar.isNaN x.upper = false ∧
      Scalar.lt x.upper x.lower = false

/-- Both sides are sound. -/
structure Constraint.IsSound (c : Constraint K L) : Prop where
  left : c.left.IsSound
  right : c.right.IsSound

/-- An operand that is a sound expression, or none. -/
def Operand.IsSound (o : Operand K) : Prop := ∀ e, o = .expression e → e.IsSound

theorem Operand.IsSound.expression {e : Expression K} (h : e.IsSound) :
    (Operand.expression e).IsSound := by
  rintro _ ⟨⟩
  exact h

theorem Operand.IsSound.number (k : K) : (Operand.number k).IsSound := by
  rintro _ ⟨⟩

theorem Operand.IsSound.toExpression {o : Operand K} (h : o.IsSound) {e : Expression K}
    (he : o.toExpression = .ok e) : e.IsSound := by
  cases o with
  | expression e' =>
    cases he
    exact h e rfl
  | number k => exact (Expression.keeps_ofScalar k e (mapError_eq_ok.mp he)).1
  | other shown => cases he

/-- What is declared is sound, with the name and the kind it was declared with. -/
theorem Variable.isSound_of_declare {name : VariableName} {kind : VariableKind}
    {lower upper : Option K} {x : Variable K} (h : declare name kind lower upper = .ok x) :
    x.IsSound ∧ x.name = name ∧ x.kind = kind := by
  have hbounds : ∀ {kind : VariableKind} {low high : K}, kind ≠ .boolean →
      (if Scalar.isNaN low || Scalar.isNaN high then .error (.notANumber name)
        else if Scalar.lt high low then .error (.inverted name low high)
        else .ok ⟨name, kind, low, high⟩ : Except (BoundsError K) (Variable K)) = .ok x →
      x.IsSound ∧ x.name = name ∧ x.kind = kind := by
    intro kind low high hkind h
    split_ifs at h with hnan hinv
    cases h
    simp only [Bool.or_eq_true, not_or, Bool.not_eq_true] at hnan hinv
    exact ⟨⟨fun hb => absurd hb hkind, fun _ => ⟨hnan.1, hnan.2, hinv⟩⟩, rfl, rfl⟩
  cases kind with
  | boolean =>
    rw [declare] at h
    split_ifs at h
    cases h
    exact ⟨⟨fun _ => ⟨rfl, rfl⟩, fun hb => absurd rfl hb⟩, rfl, rfl⟩
  | integer => exact hbounds nofun h
  | numeric => exact hbounds nofun h

namespace Builder

/-- The parts of a builder are sound, and no two variables have the same name. -/
structure IsSound (b : Builder K L) : Prop where
  vars : ∀ x ∈ b.vars, x.IsSound
  names_nodup : b.names.Nodup
  constraints : ∀ c ∈ b.constraints, c.IsSound
  objective : ∀ o, b.objective = some o → o.expression.IsSound

/-- The builder that a program leaves, whether it returns or fails. -/
def after {α : Type} (program : BuilderM K L α) (b : Builder K L) : Builder K L :=
  (runFrom program b).2

/-! ### What the operations leave -/

variable (b : Builder K L)

omit [Scalar K] in
theorem runFrom_register (x : Variable K) : runFrom (register x) b =
    if b.names.contains x.name then (.error (.duplicateName x.name), b)
    else (.ok x, { b with vars := b.vars ++ [x] }) := by
  simp only [register, runFrom_bind, runFrom_get]
  split_ifs <;> rfl

theorem runFrom_expressionOf (o : Operand K) :
    runFrom (expressionOf o) b = (o.toExpression.mapError .operand, b) := by
  unfold expressionOf
  cases o.toExpression <;> rfl

/-- A declaration uses up a name at most, or registers a sound variable with a new name. -/
theorem after_declare (kind : VariableKind) (name : Option VariableName)
    (lower upper : Option K) :
    ∃ n, after (declare kind name lower upper) b = { b with sequence := n } ∨
      ∃ x : Variable K, x.IsSound ∧ x.name ∉ b.names ∧
        after (declare kind name lower upper) b
          = { b with sequence := n, vars := b.vars ++ [x] } := by
  have hname : ∃ m n, runFrom (nameFor (K := K) (L := L) name : BuilderM K L _) b
      = (.ok m, { b with sequence := n }) :=
    match name with
    | some m => ⟨m, b.sequence, rfl⟩
    | none => ⟨_, _, rfl⟩
  obtain ⟨m, n, hn⟩ := hname
  refine ⟨n, ?_⟩
  unfold after declare
  rw [runFrom_bind, hn]
  simp only
  cases hx : Variable.declare m kind lower upper with
  | error e => exact .inl rfl
  | ok x =>
    simp only
    rw [runFrom_register]
    split_ifs with hc
    · exact .inl rfl
    · refine .inr ⟨x, (Variable.isSound_of_declare hx).1, ?_, rfl⟩
      simpa [names] using hc

omit [Scalar K] in
theorem after_addConstraint (c : Constraint K L) (explicit : Option L) :
    after (addConstraint c explicit) b
      = { b with constraints := b.constraints ++ [b.relabel c explicit] } := rfl

/-- Relating operands registers a constraint between the expressions they stand for, if both stand
for one. -/
theorem after_relate (left right : Operand K) (r : Relationship) (explicit : Option L) :
    after (relate left right r explicit) b = b ∨
      ∃ e e', left.toExpression = .ok e ∧ right.toExpression = .ok e' ∧
        after (relate left right r explicit) b
          = after (addConstraint ⟨e, e', r, none⟩ explicit) b := by
  unfold after relate
  simp only [runFrom_bind, runFrom_expressionOf]
  cases left.toExpression with
  | error x => exact .inl rfl
  | ok e =>
    cases right.toExpression with
    | error x => exact .inl rfl
    | ok e' => exact .inr ⟨e, e', rfl, rfl, rfl⟩

theorem after_setObjective (o : Operand K) (goal : Goal) :
    after (setObjective o goal) b = b ∨
      ∃ e, o.toExpression = .ok e ∧
        after (setObjective o goal) b = { b with objective := some ⟨e, goal⟩ } := by
  unfold after setObjective
  simp only [runFrom_bind, runFrom_expressionOf]
  cases o.toExpression with
  | error x => exact .inl rfl
  | ok e => exact .inr ⟨e, rfl, rfl⟩

/-! ### Steps -/

/-- What one operation does to a builder. -/
inductive Step : Builder K L → Builder K L → Prop
  | declare (b : Builder K L) (kind : VariableKind) (name : Option VariableName)
      (lower upper : Option K) : Step b (after (Builder.declare kind name lower upper) b)
  | addConstraint (b : Builder K L) {c : Constraint K L} (h : c.IsSound) (explicit : Option L) :
      Step b (after (Builder.addConstraint c explicit) b)
  | relate (b : Builder K L) {left right : Operand K} (hl : left.IsSound) (hr : right.IsSound)
      (r : Relationship) (explicit : Option L) :
      Step b (after (Builder.relate left right r explicit) b)
  | setObjective (b : Builder K L) {o : Operand K} (h : o.IsSound) (goal : Goal) :
      Step b (after (Builder.setObjective o goal) b)
  | block (b : Builder K L) (label : Option L) : Step b { b with block := label }

/-- A builder after another, with families that failed taken back. -/
inductive Reaches : Builder K L → Builder K L → Prop
  | refl (b : Builder K L) : Reaches b b
  | step {b c d : Builder K L} (h : Reaches b c) (hs : Step c d) : Reaches b d
  | undo {b c d : Builder K L} (h : Reaches b c) (hd : Reaches c d) : Reaches b (rollback c d)

/-- A builder that comes from the empty one. -/
def Reachable (b : Builder K L) : Prop := Reaches empty b

omit [Scalar K] in
theorem relabel_sides (c : Constraint K L) (explicit : Option L) :
    (b.relabel c explicit).left = c.left ∧ (b.relabel c explicit).right = c.right := by
  unfold relabel
  cases b.labelFor c explicit with
  | none => exact ⟨rfl, rfl⟩
  | some label => exact ⟨rfl, rfl⟩

variable {b} in
theorem isSound_relabel {c : Constraint K L} (h : c.IsSound) (explicit : Option L) :
    (b.relabel c explicit).IsSound := by
  obtain ⟨hl, hr⟩ := b.relabel_sides c explicit
  exact ⟨hl ▸ h.left, hr ▸ h.right⟩

theorem isSound_empty : (empty : Builder K L).IsSound where
  vars := nofun
  names_nodup := List.nodup_nil
  constraints := nofun
  objective := nofun

namespace IsSound

variable {b} (hb : b.IsSound)

include hb

theorem addConstraints {added : List (Constraint K L)} (h : ∀ c ∈ added, c.IsSound) :
    { b with constraints := b.constraints ++ added }.IsSound :=
  { hb with constraints := List.forall_mem_append.mpr ⟨hb.constraints, h⟩ }

theorem addConstraint {c : Constraint K L} (h : c.IsSound) (explicit : Option L) :
    (after (Builder.addConstraint c explicit) b).IsSound := by
  rw [after_addConstraint]
  exact hb.addConstraints (List.forall_mem_singleton.mpr (isSound_relabel h explicit))

theorem addVariable {x : Variable K} (h : x.IsSound) (hn : x.name ∉ b.names) (n : ℕ) :
    { b with sequence := n, vars := b.vars ++ [x] }.IsSound := by
  refine { hb with vars := fun y hy => ?_, names_nodup := ?_ }
  · rcases List.mem_append.mp hy with hy | hy
    · exact hb.vars y hy
    · rw [List.mem_singleton.mp hy]
      exact h
  · have : (b.names ++ [x.name]).Nodup := by
      rw [List.nodup_append]
      refine ⟨hb.names_nodup, List.nodup_singleton _, ?_⟩
      rintro m hm _ hx rfl
      exact hn (List.mem_singleton.mp hx ▸ hm)
    simpa [names] using this

theorem rollback (a : Builder K L) : (rollback a b).IsSound where
  vars x hx := hb.vars x (List.mem_of_mem_filter hx)
  names_nodup := hb.names_nodup.sublist (List.filter_sublist.map _)
  constraints := hb.constraints
  objective := hb.objective

end IsSound

theorem Step.isSound {b c : Builder K L} (h : Step b c) (hb : b.IsSound) : c.IsSound := by
  cases h with
  | declare kind name lower upper =>
    obtain ⟨n, h | ⟨x, hx, hn, h⟩⟩ := after_declare b kind name lower upper
    · rw [h]
      exact { hb with }
    · rw [h]
      exact hb.addVariable hx hn n
  | addConstraint h explicit => exact hb.addConstraint h explicit
  | relate hl hr r explicit =>
    rcases after_relate b _ _ r explicit with h | ⟨e, e', he, he', h⟩
    · rw [h]
      exact hb
    · rw [h]
      exact hb.addConstraint ⟨hl.toExpression he, hr.toExpression he'⟩ explicit
  | setObjective ho goal =>
    rcases after_setObjective b _ goal with h | ⟨e, he, h⟩
    · rw [h]
      exact hb
    · rw [h]
      refine { hb with objective := ?_ }
      rintro _ ⟨⟩
      exact ho.toExpression he
  | block label => exact { hb with }

theorem Reaches.isSound {b c : Builder K L} (h : Reaches b c) (hb : b.IsSound) : c.IsSound := by
  induction h with
  | refl b => exact hb
  | step h hs ih => exact hs.isSound (ih hb)
  | undo h hd ih ihd => exact (ihd (ih hb)).rollback _

/-- **Every builder is sound.** -/
theorem Reachable.isSound {b : Builder K L} (h : Reachable b) : b.IsSound :=
  Reaches.isSound h isSound_empty

/-! ### Programs made of steps -/

theorem Reaches.trans {b c d : Builder K L} (h : Reaches b c) (hd : Reaches c d) :
    Reaches b d := by
  induction hd with
  | refl c => exact h
  | step _ hs ih => exact .step (ih h) hs
  | undo _ hd ih _ => exact .undo (ih h) hd

/-- A program that is undone if it fails leaves a builder that is reached. -/
theorem reaches_undoingOnError {α : Type} (program : BuilderM K L α) {b : Builder K L}
    (h : Reaches b (after program b)) :
    Reaches b (after (undoingOnError (K := K) (L := L) (ε := BuilderError K) program) b) := by
  unfold after at h ⊢
  simp only [undoingOnError, runFrom_bind, runFrom_get, runFrom_tryCatch]
  cases hrun : runFrom program b with
  | mk r c =>
    rw [hrun] at h
    cases r with
    | ok a => exact h
    | error e => exact .undo (.refl b) h

/-- A block around a program leaves a builder that is reached if the program's is. -/
theorem reaches_within {α : Type} (program : BuilderM K L α) (label : Option L) {b : Builder K L}
    (h : Reaches { b with block := label } (after program { b with block := label })) :
    Reaches b (after (within (K := K) label program) b) := by
  have hrun : after (within (K := K) label program) b
      = { after program { b with block := label } with block := b.block } :=
    congrArg Prod.snd (runFrom_tryFinally _ program _)
  rw [hrun]
  exact .step (.trans (.step (.refl b) (.block b label)) h) (.block _ b.block)

end Builder
end LinModel
