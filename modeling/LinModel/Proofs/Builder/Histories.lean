import LinModel.Proofs.Builder.Families
import LinModel.Proofs.Builder.Reformulations

/-!
# Histories of a builder

A client uses a builder by operations, blocks and families, one inside the other to any depth and in
an order that may depend on everything it has seen; it may fail at any point, and catch failures of
its own. While it runs, a note is taken of every operation, block and family when it is over,
whether it returned or failed: which blocks were open around it, and the builder before and after.

What a whole run does to the builder comes from its parts. An operation is one step; a block runs
its body under its label and puts the old one back; a family that fails with an error is rolled
back, and one that is interrupted is left as it is. A relation that these pass on holds of every run
of every client (`Client.Passes.moves`).

Key definitions: `Builder.Operation`, `Client`, `Note`, `Client.run`, `Client.Passes`.
Key theorems: `runFrom_noting`, `runFrom_within`, `Recipe.moves`, `Client.Passes.moves`.
-/
namespace LinModel

variable {K L κ ε α β : Type}

/-! ### Operations -/

namespace Builder

/-- The operations on a builder with what they are given. -/
inductive Operation (K L : Type)
  | declare (kind : VariableKind) (name : Option VariableName) (lower upper : Option K)
  | addConstraint (c : Constraint K L) (explicit : Option L)
  | relate (left right : Operand K) (relationship : Relationship) (explicit : Option L)
  | setObjective (operand : Operand K) (goal : Goal)
  | reformulate (recipe : Recipe K)
  | build (settings : Settings K)

/-- Why an operation is refused. -/
inductive Refusal (K L : Type)
  | operation (e : BuilderError K)
  | build (e : BuildError K L)

/-- Carries out an operation; what it returns is left to be read off the builder. -/
def Operation.run [Scalar K] : Operation K L → ExceptT (Refusal K L) (StateM (Builder K L)) Unit
  | .declare kind name lower upper => on (Builder.declare kind name lower upper)
  | .addConstraint c explicit => on (Builder.addConstraint c explicit)
  | .relate left right relationship explicit =>
    on (Builder.relate left right relationship explicit)
  | .setObjective operand goal => on (Builder.setObjective operand goal)
  | .reformulate recipe => on recipe.run
  | .build settings => do
    match (← get).build settings with
    | .ok _ => return
    | .error e => throw (.build e)
where
  /-- Carries out a program for what it does to the builder. -/
  on {α : Type} (program : BuilderM K L α) :
      ExceptT (Refusal K L) (StateM (Builder K L)) Unit :=
    ExceptT.adapt .operation do
      let _ ← program

end Builder

/-! ### Clients -/

/-- The programs of a client, with its own failures `ε` and with keys `κ` for its families. -/
inductive Client (K L κ ε : Type) : Type → Type 1
  | done {α : Type} (a : α) : Client K L κ ε α
  | fail {α : Type} (e : ε) : Client K L κ ε α
  | bind {α β : Type} (first : Client K L κ ε α) (next : α → Client K L κ ε β) : Client K L κ ε β
  /-- Catches the failure of a program. -/
  | attempt {α : Type} (body : Client K L κ ε α) : Client K L κ ε (Except ε α)
  | observe : Client K L κ ε (Builder K L)
  | perform (op : Builder.Operation K L) : Client K L κ ε (Except (Builder.Refusal K L) Unit)
  | block {α : Type} (label : Option L) (body : Client K L κ ε α) : Client K L κ ε α
  | family {α : Type} (dimensions : Client K L κ ε (List (List κ)))
      (refuse : Client K L κ ε (TensorError κ → ε)) (nameOf : List κ → Client K L κ ε String)
      (provide : String → Client K L κ ε α) : Client K L κ ε (Tensor κ Unit α)

instance : Monad (Client K L κ ε) where
  pure := .done
  bind := .bind

/-- What a client did. -/
inductive Deed (K L : Type)
  | operation (op : Builder.Operation K L)
  | block (label : Option L)
  | family

/-- A note of what a client did, taken when it was over. -/
structure Note (K L : Type) where
  deed : Deed K L
  /-- The labels of the blocks that were open around it, the innermost first. -/
  openBlocks : List (Option L)
  before : Builder K L
  after : Builder K L

/-- A builder with the notes so far. -/
abbrev Diary (K L : Type) := Builder K L × List (Note K L)

/-- Runs a program and takes a note of it, whether it returns or fails. -/
def noting (openBlocks : List (Option L)) (deed : Deed K L)
    (program : ClientM K L (List (Note K L)) ε α) : ClientM K L (List (Note K L)) ε α := do
  let before : Builder K L ← get
  let result ← attempt program
  let after : Builder K L ← get
  modifyThe (Diary K L) fun s => (s.1, s.2 ++ [⟨deed, openBlocks, before, after⟩])
  MonadExcept.ofExcept result

/-- Runs a client inside some blocks. -/
def Client.run [Scalar K] [Key κ] [Interruptible ε] : {α : Type} → List (Option L) →
    Client K L κ ε α → ClientM K L (List (Note K L)) ε α
  | _, _, .done a => pure a
  | _, _, .fail e => throw e
  | _, opened, .bind first next => do (next (← first.run opened)).run opened
  | _, opened, .attempt body => LinModel.attempt (body.run opened)
  | _, _, .observe => get
  | _, opened, .perform op => noting opened (.operation op) (modifyGet (runFrom op.run))
  | _, opened, .block label body =>
    noting opened (.block label) (Builder.within (K := K) label (body.run (label :: opened)))
  | _, opened, .family dimensions refuse nameOf provide =>
    noting opened .family (Builder.family (K := K) (L := L) (ε := ε) (dimensions.run opened)
      (refuse.run opened) (fun keys => (nameOf keys).run opened)
      fun name => (provide name).run opened)

namespace Client

variable [Scalar K] [Key κ] [Interruptible ε]

/-- The builder after a run that starts outside all blocks of the client. -/
def leaves (p : Client K L κ ε α) (b : Builder K L) : Builder K L :=
  (runFrom (p.run []) (b, [])).2.1

/-- The notes of a run that starts outside all blocks of the client. -/
def notes (p : Client K L κ ε α) (b : Builder K L) : List (Note K L) :=
  (runFrom (p.run []) (b, [])).2.2

end Client

/-! ### What the parts of a run do -/

theorem runFrom_noting (opened : List (Option L)) (deed : Deed K L)
    (program : ClientM K L (List (Note K L)) ε α) (s : Diary K L) :
    runFrom (noting opened deed program) s
      = ((runFrom program s).1, (runFrom program s).2.1,
          (runFrom program s).2.2 ++ [⟨deed, opened, s.1, (runFrom program s).2.1⟩]) := by
  have h : runFrom (noting opened deed program) s
      = runFrom (MonadExcept.ofExcept (runFrom program s).1)
          ((runFrom program s).2.1,
            (runFrom program s).2.2 ++ [⟨deed, opened, s.1, (runFrom program s).2.1⟩]) := rfl
  rw [h]
  cases (runFrom program s).1 with
  | ok a => rfl
  | error e => rfl

/-- A block runs its body under its label, and puts back the label in force before. -/
theorem runFrom_within {ρ : Type} (label : Option L) (program : ClientM K L ρ ε α)
    (s : Builder K L × ρ) :
    runFrom (Builder.within (K := K) label program) s
      = ((runFrom program ({ s.1 with block := label }, s.2)).1,
          { (runFrom program ({ s.1 with block := label }, s.2)).2.1 with block := s.1.block },
          (runFrom program ({ s.1 with block := label }, s.2)).2.2) :=
  runFrom_tryFinally (({ s.1 with block := label } : Builder K L), s.2) program
    fun t => ({ t.1 with block := s.1.block }, t.2)

variable [Scalar K]

omit [Scalar K] in
theorem Builder.after_on (program : BuilderM K L α) (b : Builder K L) :
    (runFrom (Operation.run.on program) b).2 = after program b := by
  unfold Operation.run.on after
  rw [runFrom_adapt, runFrom_bind]
  rcases runFrom program b with ⟨e | a, c⟩ <;> rfl

theorem Builder.after_build (settings : Builder.Settings K) (b : Builder K L) :
    (runFrom (Operation.build settings).run b).2 = b := by
  rw [Operation.run, runFrom_bind, runFrom_get]
  simp only
  cases b.build settings with
  | ok m => rfl
  | error e => rfl

namespace Builder

/-- A declaration moves as using up a name and adding a variable with a new name do. -/
theorem moves_declare {R : Builder K L → Builder K L → Prop}
    (hused : ∀ b n, R b { b with sequence := n })
    (hnew : ∀ b n x, x.name ∉ b.names → R b { b with sequence := n, vars := b.vars ++ [x] })
    (kind : VariableKind) (name : Option VariableName) (lower upper : Option K) :
    Moves R (declare kind name lower upper) := by
  intro b
  show R b (after (declare kind name lower upper) b)
  obtain ⟨n, h | ⟨x, -, hx, h⟩⟩ := after_declare b kind name lower upper
  · rw [h]
    exact hused b n
  · rw [h]
    exact hnew b n x hx

theorem moves_setObjective {R : Builder K L → Builder K L → Prop} (hrefl : ∀ b, R b b)
    (hset : ∀ b o, R b { b with objective := some o }) (o : Operand K) (goal : Goal) :
    Moves R (setObjective o goal) := by
  intro b
  show R b (after (setObjective o goal) b)
  rcases after_setObjective b o goal with h | ⟨e, -, h⟩
  · rw [h]
    exact hrefl b
  · rw [h]
    exact hset b _

theorem moves_combineOperands {R : Builder K L → Builder K L → Prop} (hrefl : ∀ b, R b b)
    (f : Expression K → Expression K → Except (ExpressionError K) (Expression K))
    (x y : Operand K) : Moves R (steps.combineOperands f x y) := by
  intro b
  unfold steps.combineOperands
  simp only [runFrom_bind, runFrom_expressionOf]
  cases x.toExpression with
  | error e => exact hrefl b
  | ok l =>
    cases y.toExpression with
    | error e => exact hrefl b
    | ok r =>
      simp only [ok_mapError]
      cases f l r with
      | error e => exact hrefl b
      | ok z => exact hrefl b

end Builder

namespace Recipe

variable {R : Builder K L → Builder K L → Prop} (hrefl : ∀ b, R b b)
  (htrans : ∀ b c d, R b c → R c d → R b d)
  (hdeclare : ∀ kind lower upper, Moves R (Builder.declare kind none lower upper))
  (hrelate : ∀ left right r, Moves R (Builder.relate left right r none))
  (hobjective : ∀ o goal, Moves R (Builder.setObjective o goal))

include hrefl htrans hdeclare hrelate

theorem moves_bounding (r : Relationship) (items : List (Operand K)) : Moves R (do
    let v ← (Builder.steps (L := L)).declare false
    let cs ← items.mapM fun o =>
      (Builder.steps (L := L)).relate ((Builder.steps (L := L)).ofVariable v) o r
    return (v, cs)) := by
  have hfirst : Moves R ((Builder.steps (L := L)).declare false) := hdeclare _ _ _
  refine .bind htrans hfirst fun v => .bind htrans ?_ fun cs => .pure hrefl _
  exact .mapM hrefl htrans (fun o => hrelate _ _ _) items

theorem moves_absolute (item : Operand K) :
    Moves R (Reformulation.absolute (Builder.steps (L := L)) item) := by
  refine .bind htrans (hdeclare _ _ _) fun positive => ?_
  refine .bind htrans (hdeclare _ _ _) fun negative => ?_
  refine .bind htrans (Builder.moves_combineOperands hrefl _ _ _) fun difference => ?_
  refine .bind htrans (hrelate _ _ _) fun c => ?_
  refine .bind htrans (Builder.moves_combineOperands hrefl _ _ _) fun deviation => ?_
  exact .pure hrefl _

include hobjective

/-- **What declaring without a name, relating and setting the objective pass on, every reformulation
does.** -/
theorem moves (recipe : Recipe K) : Moves R (recipe.run : BuilderM K L Unit) := by
  have hbounding := moves_bounding hrefl htrans hdeclare hrelate
  have hset : ∀ (goal : Goal) (x : Variable K), Moves R
      ((Builder.steps (L := L)).optimize (.expression (.variable x)) goal) := fun goal x =>
    .bind htrans (hobjective _ goal) fun o => .pure hrefl _
  cases recipe with
  | largest items => exact .bind htrans (hbounding .ge items) fun _ => .pure hrefl _
  | smallest items => exact .bind htrans (hbounding .le items) fun _ => .pure hrefl _
  | absolute item =>
    exact .bind htrans (moves_absolute hrefl htrans hdeclare hrelate item) fun _ => .pure hrefl _
  | maximizeSmallest items =>
    refine .bind htrans (.bind htrans (hbounding .le items) fun r => ?_) fun _ => .pure hrefl _
    exact .bind htrans (hset .max r.1) fun o => .pure hrefl _
  | minimizeLargest items =>
    refine .bind htrans (.bind htrans (hbounding .ge items) fun r => ?_) fun _ => .pure hrefl _
    exact .bind htrans (hset .min r.1) fun o => .pure hrefl _

end Recipe

/-! ### Whole runs -/

namespace Client

/-- A relation between diaries, inside open blocks, that passes from the parts of a run to the
whole. -/
structure Passes (R : List (Option L) → Diary K L → Diary K L → Prop) : Prop where
  refl : ∀ opened s, R opened s s
  trans : ∀ opened s t u, R opened s t → R opened t u → R opened s u
  operation : ∀ opened (op : Builder.Operation K L) b notes, R opened (b, notes)
    ((runFrom op.run b).2, notes ++ [⟨.operation op, opened, b, (runFrom op.run b).2⟩])
  block : ∀ opened label b notes c notes',
    R (label :: opened) ({ b with block := label }, notes) (c, notes') →
    R opened (b, notes) ({ c with block := b.block },
      notes' ++ [⟨.block label, opened, b, { c with block := b.block }⟩])
  family : ∀ opened b notes c notes', R opened (b, notes) (c, notes') →
    R opened (b, notes) (c, notes' ++ [⟨.family, opened, b, c⟩])
  failedFamily : ∀ opened b notes c notes', R opened (b, notes) (c, notes') →
    R opened (b, notes) (Builder.rollback b c,
      notes' ++ [⟨.family, opened, b, Builder.rollback b c⟩])

variable [Key κ] [Interruptible ε]

/-- **What the parts of a run pass on, every run of every client does.** -/
theorem Passes.moves {R : List (Option L) → Diary K L → Diary K L → Prop} (h : Passes R)
    (p : Client K L κ ε α) (opened : List (Option L)) : Moves (R opened) (p.run opened) := by
  induction p generalizing opened with
  | done a => exact .pure (h.refl opened) a
  | fail e => exact .throw (h.refl opened) e
  | bind first next ihfirst ihnext =>
    exact .bind (h.trans opened) (ihfirst opened) fun a => ihnext a opened
  | attempt body ih => exact ih opened
  | observe => exact h.refl opened
  | perform op =>
    intro s
    rw [run, runFrom_noting]
    exact h.operation opened op s.1 s.2
  | block label body ih =>
    intro s
    -- the body is one block deeper, and starts from the builder under the block's label
    rw [run, runFrom_noting, runFrom_within]
    exact h.block opened label s.1 s.2 _ _ (ih (label :: opened) _)
  | family dimensions refuse nameOf provide ihdimensions ihrefuse ihname ihprovide =>
    intro s
    -- keys, names and members all run before it is known whether the family is rolled back
    have hmembers : Moves (R opened) (do
        let dims ← dimensions.run opened
        Tensor.generate (δ := Unit) (← refuse.run opened) dims
          (fun keys => do (provide (← (nameOf keys).run opened)).run opened) none none) := by
      refine .bind (h.trans opened) (ihdimensions opened) fun dims => ?_
      refine .bind (h.trans opened) (ihrefuse opened) fun word => ?_
      refine .generate (h.refl opened) (h.trans opened) word dims (fun keys => ?_) none none
      exact .bind (h.trans opened) (ihname keys opened) fun name => ihprovide name opened
    have hrun := hmembers s
    rw [run, runFrom_noting]
    unfold Builder.family
    rw [ClientM.runFrom_undoingOnError]
    generalize runFrom _ s = r at hrun ⊢
    obtain ⟨e | t, c⟩ := r
    · simp only
      by_cases hpasses : Interruptible.isInterruption e = true
      · rw [if_pos hpasses]
        exact h.family opened s.1 s.2 c.1 c.2 hrun
      · rw [if_neg hpasses]
        exact h.failedFamily opened s.1 s.2 c.1 c.2 hrun
    · exact h.family opened s.1 s.2 c.1 c.2 hrun

end Client
end LinModel
