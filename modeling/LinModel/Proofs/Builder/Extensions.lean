import LinModel.Proofs.Builder.Reformulations
import LinModel.Proofs.Compiling.Names

/-!
# Points of a builder that is extended

A point of a builder with more variables extends a point of the builder before if it has the same
values for the names before (`Point.AgreesOn`). Constraints that mention registered names only are
satisfied by the one if they are by the other (`Builder.satisfiedAt_congr`), so the builder with
more is satisfied where the one before was and where its new variables and constraints are
(`Builder.satisfiedAt_append`). A builder that builds is satisfied where its model is.

Key definitions: `Point.AgreesOn`, `Builder.IsSelfContained`, `Builder.extensionValues`.
Key theorems: `Expression.exactAt_congr`, `Builder.satisfiedAt_congr`,
`Builder.satisfiedAt_append`, `Builder.satisfiedAt_of_build`, `Builder.objective_of_build`.
-/
namespace LinModel

open Extended

variable {L : Type}

/-! ### Points that agree -/

/-- Two points have the same values for the names. -/
def Point.AgreesOn (v a : Point) (names : List VariableName) : Prop :=
  ∀ name ∈ names, v name = a name

section Agreeing

variable {v a : Point}

theorem Point.AgreesOn.mono {names known : List VariableName} (h : v.AgreesOn a known)
    (hsub : names ⊆ known) : v.AgreesOn a names := fun name hname => h name (hsub hname)

/-- Changing the value of another name keeps the values of names. -/
theorem Point.agreesOn_update {name : VariableName} {names : List VariableName} (q : ℚ)
    (h : v.AgreesOn a names) (hname : name ∉ names) :
    Point.AgreesOn (Function.update v name q) a names := by
  intro n hn
  rw [Function.update_of_ne (ne_of_mem_of_not_mem hn hname)]
  exact h n hn

theorem Coefficients.termsAt_congr : ∀ {cs : Coefficients Extended}, v.AgreesOn a cs.keys →
    cs.termsAt v = cs.termsAt a
  | [], _ => rfl
  | (name, c) :: cs, h => by
    obtain ⟨hname, hcs⟩ := List.forall_mem_cons.mp h
    rw [termsAt_cons, termsAt_cons, hname, termsAt_congr hcs]

/-- **The value of an expression depends on its names.** -/
theorem Expression.exactAt_congr {e : Expression Extended} (h : v.AgreesOn a e.names) :
    e.exactAt v = e.exactAt a := by
  rw [exactAt, exactAt, Coefficients.termsAt_congr h]

theorem Constraint.holdsAt_congr {c : Constraint Extended L} (hc : c.IsSound)
    (hl : v.AgreesOn a c.left.names) (hr : v.AgreesOn a c.right.names) :
    c.HoldsAt v ↔ c.HoldsAt a := by
  rw [holdsAt_iff hc.left hc.right, holdsAt_iff hc.left hc.right, Expression.exactAt_congr hl,
    Expression.exactAt_congr hr]

theorem Variable.admitsAt_congr {x : Variable Extended} (h : v x.name = a x.name) :
    x.AdmitsAt v ↔ x.AdmitsAt a := by
  rw [AdmitsAt, AdmitsAt, h]

end Agreeing

namespace Builder

/-- The constraints mention registered names only. -/
def IsSelfContained (b : Builder Extended L) : Prop :=
  ∀ c ∈ b.constraints, c.left.names ⊆ b.names ∧ c.right.names ⊆ b.names

theorem sample_isSelfContained : sample.IsSelfContained := by
  intro c hc
  cases List.mem_singleton.mp hc
  exact ⟨by decide, by decide⟩

/-- The values that an expression has at the points of a builder with the values of a point for
some names. -/
def extensionValues (c : Builder Extended L) (names : List VariableName) (a : Point)
    (e : Expression Extended) : Set ℚ :=
  {q | ∃ v : Point, v.AgreesOn a names ∧ c.SatisfiedAt v ∧ e.exactAt v = q}

section Extending

variable {b c : Builder Extended L} {v a : Point}

theorem constraints_congr (hb : b.IsSound) (hself : b.IsSelfContained)
    (h : v.AgreesOn a b.names) :
    (∀ k ∈ b.constraints, k.HoldsAt v) ↔ ∀ k ∈ b.constraints, k.HoldsAt a := by
  refine forall₂_congr fun k hk => ?_
  obtain ⟨hl, hr⟩ := hself k hk
  exact Constraint.holdsAt_congr (hb.constraints k hk) (h.mono hl) (h.mono hr)

/-- **Whether a builder is satisfied depends on its variables.** -/
theorem satisfiedAt_congr (hb : b.IsSound) (hself : b.IsSelfContained)
    (h : v.AgreesOn a b.names) : b.SatisfiedAt v ↔ b.SatisfiedAt a := by
  refine and_congr (constraints_congr hb hself h) (forall₂_congr fun x hx => ?_)
  exact Variable.admitsAt_congr (h x.name (List.mem_map_of_mem hx))

/-- A builder with more variables and constraints is satisfied where it was and where they are. -/
theorem satisfiedAt_append {new : List (Variable Extended)} {added : List (Constraint Extended L)}
    (hvars : c.vars = b.vars ++ new) (hconstraints : c.constraints = b.constraints ++ added) :
    c.SatisfiedAt v ↔
      b.SatisfiedAt v ∧ (∀ k ∈ added, k.HoldsAt v) ∧ ∀ x ∈ new, x.AdmitsAt v := by
  rw [SatisfiedAt, SatisfiedAt, hvars, hconstraints, List.forall_mem_append,
    List.forall_mem_append]
  exact and_and_and_comm

end Extending

/-! ### What is registered -/

section Registered

variable {b : Builder Extended L} {v : Point}

/-- A free helper may have any value, one that is not negative the values from zero up. -/
theorem admitsAt_helper (n : ℕ) (nonNegative : Bool) :
    (Recipe.helper n nonNegative).AdmitsAt v ↔ (nonNegative = true → 0 ≤ v (.automatic n)) := by
  unfold Variable.AdmitsAt Recipe.helper
  cases nonNegative with
  | false => simp [VariableKind.Admits]
  | true => simp [VariableKind.Admits]

theorem isSound_helper (n : ℕ) (nonNegative : Bool) : (Recipe.helper n nonNegative).IsSound := by
  refine ⟨nofun, fun _ => ?_⟩
  cases nonNegative with
  | false => exact ⟨rfl, rfl, rfl⟩
  | true => exact ⟨rfl, rfl, rfl⟩

theorem holdsAt_relabel (k : Constraint Extended L) (explicit : Option L) :
    (b.relabel k explicit).HoldsAt v ↔ k.HoldsAt v := by
  unfold relabel
  cases b.labelFor k explicit with
  | none => exact Iff.rfl
  | some label => exact Iff.rfl

end Registered

/-! ### Points of a model that is built -/

section Built

variable {b : Builder Extended L} {settings : Settings Extended} {m : CompiledModel Extended L}

theorem satisfiedAt_of_build (hb : b.IsSound) (hm : b.build settings = .ok m) (v : Point) :
    m.SatisfiedAt v ↔ b.SatisfiedAt v := by
  refine Iff.symm (and_congr ?_ ?_)
  · exact forall_mem_congr (constraints_of_build hb hm) fun k k' h =>
      compileConstraint_holdsAt h.1 h.2 v
  · exact forall_mem_congr (vars_of_build hb hm) fun x x' h => h.admitsAt v

theorem objective_of_build (hb : b.IsSound) (hm : b.build settings = .ok m)
    {o : Objective Extended} (ho : b.objective = some o) :
    m.objective.goal = o.goal ∧
      ∀ v, m.objective.valueAt v = rational (o.expression.exactAt v) := by
  obtain ⟨-, -, -, -, -, o', ho', hcompile⟩ := compile_eq_ok.mp (build_eq_ok.mp hm).1
  cases ho.symm.trans ho'
  refine ⟨?_, fun v => ?_⟩
  · obtain ⟨-, h⟩ := compileObjective_eq_ok.mp hcompile
    rw [h]
  · rw [compileObjective_valueAt (hb.objective o ho) hcompile,
      Expression.valueAt_eq (hb.objective o ho)]

end Built

end Builder
end LinModel
