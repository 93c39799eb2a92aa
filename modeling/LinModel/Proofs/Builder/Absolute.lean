import LinModel.Proofs.Builder.Extensions

/-!
# Splitting into deviations is exact

The absolute value of an expression is modelled by two new variables that are not negative and whose
difference is the expression (`Builder.satisfiedAt_withSplit`). Their sum, the deviation, is then at
least the absolute value. Every number from there up is a deviation, as what it has in excess can be
given to both variables in equal parts without a change of the difference
(`Builder.extensionValues_withSplit`).

Key definitions: `Builder.withSplit`, `Builder.IsAbsolute`.
Key theorems: `Builder.runFrom_absolute`, `Builder.satisfiedAt_withSplit`,
`Builder.extensionValues_withSplit`, `Builder.absolute_isExact`.
-/
namespace LinModel

open Extended

variable {L : Type}

theorem Expression.exactAt_combined (sign : ℚ) (x y : Variable Extended) (v : Point) :
    (combined sign x y).exactAt v = v x.name + sign * v y.name := by
  simp [combined]

theorem Expression.isSound_combined (sign : ℚ) {x y : Variable Extended} (h : x.name ≠ y.name) :
    (combined sign x y).IsSound :=
  (keeps_combine _ (isSound_variable x) _ (Builder.combine_variables sign h)).1

namespace Builder

/-- The two variables that an expression is split into. -/
def positivePart (b : Builder Extended L) : Variable Extended := Recipe.helper (b.sequence + 1) true

@[inherit_doc positivePart]
def negativePart (b : Builder Extended L) : Variable Extended := Recipe.helper (b.sequence + 2) true

/-- The constraint that the difference of the parts is an expression. -/
def split (b : Builder Extended L) (e : Expression Extended) : Constraint Extended L :=
  b.relabel ⟨.combined (-1) b.positivePart b.negativePart, e, .eq, none⟩ none

/-- The builder with an expression split into two parts. -/
def withSplit (b : Builder Extended L) (e : Expression Extended) : Builder Extended L :=
  { (b.withHelper true).withHelper true with constraints := b.constraints ++ [b.split e] }

section Split

variable {b : Builder Extended L} {e : Expression Extended}

theorem parts_different : b.positivePart.name ≠ b.negativePart.name := by
  intro h
  have := VariableName.automatic_inj.mp h
  omega

theorem vars_withSplit :
    (b.withSplit e).vars = b.vars ++ [b.positivePart, b.negativePart] := List.append_assoc _ _ _

/-- Splitting an expression that returns has two parts with new names, and leaves the builder with
them. -/
theorem runFrom_absolute {item deviation : Operand Extended} {x y : Variable Extended}
    {k : Constraint Extended L} {c : Builder Extended L} (he : item.toExpression = .ok e)
    (h : runFrom (Reformulation.absolute steps item) b = (.ok ((x, y), k, deviation), c)) :
    b.positivePart.name ∉ b.names ∧ b.negativePart.name ∉ b.names ∧ x = b.positivePart ∧
      y = b.negativePart ∧ k = b.split e ∧ deviation = .expression (.combined 1 x y) ∧
      c = b.withSplit e := by
  unfold Reformulation.absolute at h
  rw [runFrom_bind] at h
  by_cases hfirst : .automatic (b.sequence + 1) ∈ b.names
  · rw [runFrom_declare_of_mem true hfirst] at h
    cases h
  rw [runFrom_declare_of_not_mem true hfirst] at h
  simp only at h
  rw [runFrom_bind] at h
  by_cases hsecond : .automatic ((b.withHelper true).sequence + 1) ∈ (b.withHelper true).names
  · rw [runFrom_declare_of_mem true hsecond] at h
    cases h
  rw [runFrom_declare_of_not_mem true hsecond] at h
  have hnew : b.negativePart.name ∉ b.names := fun hmem =>
    hsecond (mem_names_withHelper.mpr (.inl hmem))
  have hrun := (runFrom_difference parts_different item _).symm.trans h
  rw [he] at hrun
  cases hrun
  exact ⟨hfirst, hnew, rfl, rfl, rfl, rfl, rfl⟩

end Split

section Values

variable {b : Builder Extended L} {e : Expression Extended} {v a : Point}

/-- Where the builder was satisfied, the parts may be any two numbers that are not negative and
differ by the expression. -/
theorem satisfiedAt_withSplit (he : e.IsSound) :
    (b.withSplit e).SatisfiedAt v ↔ b.SatisfiedAt v ∧
      v b.positivePart.name - v b.negativePart.name = e.exactAt v ∧
      0 ≤ v b.positivePart.name ∧ 0 ≤ v b.negativePart.name := by
  have hsplit : (b.split e).HoldsAt v ↔
      v b.positivePart.name - v b.negativePart.name = e.exactAt v := by
    unfold split
    rw [holdsAt_relabel, Constraint.holdsAt_iff (Expression.isSound_combined _ parts_different) he,
      Expression.exactAt_combined, neg_one_mul, ← sub_eq_add_neg]
    exact Iff.rfl
  have hpositive : b.positivePart.AdmitsAt v ↔ 0 ≤ v b.positivePart.name :=
    (admitsAt_helper _ true).trans (imp_iff_right rfl)
  have hnegative : b.negativePart.AdmitsAt v ↔ 0 ≤ v b.negativePart.name :=
    (admitsAt_helper _ true).trans (imp_iff_right rfl)
  rw [satisfiedAt_append vars_withSplit rfl, List.forall_mem_singleton, hsplit,
    List.forall_mem_cons, List.forall_mem_singleton, hpositive, hnegative]

theorem isSound_withSplit (hb : b.IsSound) (he : e.IsSound)
    (hpositive : b.positivePart.name ∉ b.names) (hnegative : b.negativePart.name ∉ b.names) :
    (b.withSplit e).IsSound := by
  have hfirst : (b.withHelper true).IsSound :=
    hb.addVariable (isSound_helper _ true) hpositive _
  have hnew : b.negativePart.name ∉ (b.withHelper true).names := by
    rw [mem_names_withHelper, not_or]
    exact ⟨hnegative, parts_different.symm⟩
  have hsecond : ((b.withHelper true).withHelper true).IsSound :=
    hfirst.addVariable (isSound_helper _ true) hnew _
  have hsplit : (b.split e).IsSound :=
    isSound_relabel ⟨Expression.isSound_combined _ parts_different, he⟩ none
  exact hsecond.addConstraints (List.forall_mem_singleton.mpr hsplit)

/-- **The deviations are the numbers from the absolute value up.** -/
theorem extensionValues_withSplit (hb : b.IsSound) (hself : b.IsSelfContained) (he : e.IsSound)
    (hover : e.names ⊆ b.names) (hpositive : b.positivePart.name ∉ b.names)
    (hnegative : b.negativePart.name ∉ b.names) (ha : b.SatisfiedAt a) :
    (b.withSplit e).extensionValues b.names a (.combined 1 b.positivePart b.negativePart)
      = Set.Ici |e.exactAt a| := by
  ext q
  constructor
  · rintro ⟨v, hagrees, hv, rfl⟩
    obtain ⟨-, hdifference, hp, hn⟩ := (satisfiedAt_withSplit he).mp hv
    rw [Set.mem_Ici, Expression.exactAt_combined, one_mul,
      ← Expression.exactAt_congr (hagrees.mono hover), ← hdifference, abs_le]
    constructor
    · linarith
    · linarith
  · intro hq
    obtain ⟨hlower, hupper⟩ := abs_le.mp (Set.mem_Ici.mp hq)
    -- the excess is given to both parts, so their sum is `q` and their difference the expression
    let v : Point := Function.update (Function.update a b.positivePart.name
      ((q + e.exactAt a) / 2)) b.negativePart.name ((q - e.exactAt a) / 2)
    have hagrees : v.AgreesOn a b.names :=
      Point.agreesOn_update _ (Point.agreesOn_update _ (fun _ _ => rfl) hpositive) hnegative
    have hp : v b.positivePart.name = (q + e.exactAt a) / 2 :=
      (Function.update_of_ne parts_different _ _).trans (Function.update_self _ _ _)
    have hn : v b.negativePart.name = (q - e.exactAt a) / 2 := Function.update_self _ _ _
    refine ⟨v, hagrees, (satisfiedAt_withSplit he).mpr ⟨?_, ?_, ?_, ?_⟩, ?_⟩
    · exact (satisfiedAt_congr hb hself hagrees).mpr ha
    · rw [hp, hn, Expression.exactAt_congr (hagrees.mono hover)]
      ring
    · rw [hp]
      linarith
    · rw [hn]
      linarith
    · rw [Expression.exactAt_combined, hp, hn]
      ring

end Values

/-- What it takes that two variables model the absolute value of an expression `e`. Splitting it
goes from a builder `b` to a builder `c`, with the variables `x` and `y`, a constraint `k` and a
deviation `d`. -/
structure IsAbsolute (b c : Builder Extended L) (x y : Variable Extended)
    (k : Constraint Extended L) (d e : Expression Extended) : Prop where
  different : x.name ≠ y.name
  fresh : x.name ∉ b.names ∧ y.name ∉ b.names
  vars : c.vars = b.vars ++ [x, y]
  constraints : c.constraints = b.constraints ++ [k]
  /-- Where the builder before was satisfied, the values of the deviation at the points of the
  builder after are those from the absolute value up. -/
  values : ∀ a, b.SatisfiedAt a → c.extensionValues b.names a d = Set.Ici |e.exactAt a|
  least : ∀ a, b.SatisfiedAt a → IsLeast (c.extensionValues b.names a d) |e.exactAt a|
  /-- A model has the points of the builder, whatever its objective. -/
  built : ∀ (o : Objective Extended) settings m, o.expression.IsSound →
    { c with objective := some o }.build settings = .ok m → ∀ v, m.SatisfiedAt v ↔ c.SatisfiedAt v

/-- **Splitting into deviations is exact.** Let a builder be reached whose constraints mention
declared variables, and let an operand stand for an expression of these. If splitting it returns,
then it has declared two new variables of different names; for every point that satisfied the
builder, the values of the deviation at the points that extend it and satisfy the constraints and
bounds now are the numbers from the absolute value of the expression up, so the least is the
absolute value; and a model that is built is satisfied at the same points. -/
theorem absolute_isExact {b c : Builder Extended L} {item deviation : Operand Extended}
    {e : Expression Extended} {x y : Variable Extended} {k : Constraint Extended L}
    (hb : b.Reachable) (hself : b.IsSelfContained) (hitem : item.IsSound)
    (he : item.toExpression = .ok e) (hover : e.names ⊆ b.names)
    (h : runFrom (Reformulation.absolute steps item) b = (.ok ((x, y), k, deviation), c)) :
    ∃ d, deviation = .expression d ∧ IsAbsolute b c x y k d e := by
  have hs := hb.isSound
  have hsound := hitem.toExpression he
  obtain ⟨hpositive, hnegative, rfl, rfl, rfl, rfl, rfl⟩ := runFrom_absolute he h
  have hvalues := fun a => extensionValues_withSplit (a := a) hs hself hsound hover hpositive
    hnegative
  refine ⟨_, rfl, ?_⟩
  constructor
  case different => exact parts_different
  case fresh => exact ⟨hpositive, hnegative⟩
  case vars => exact vars_withSplit
  case constraints => rfl
  case values => exact hvalues
  case least =>
    intro a ha
    rw [hvalues a ha]
    exact isLeast_Ici
  case built =>
    intro o settings m ho hm v
    have hc : { b.withSplit e with objective := some o }.IsSound :=
      { isSound_withSplit hs hsound hpositive hnegative with
        objective := fun _ h => Option.some.inj h ▸ ho }
    exact satisfiedAt_of_build hc hm v

/-- `-3·x1` is split on the sample. -/
theorem sample_isAbsolute : ∃ x y k deviation c d,
    runFrom (Reformulation.absolute steps (.expression (.term (.automatic 1) (rational (-3)))))
      sample = (.ok ((x, y), k, deviation), c) ∧ deviation = .expression d ∧
      IsAbsolute sample c x y k d (.term (.automatic 1) (rational (-3))) := by
  have hover : (Expression.term (.automatic 1) (rational (-3))).names ⊆ sample.names := by decide
  obtain ⟨d, hd, h⟩ := absolute_isExact sample_reachable sample_isSelfContained
    (.expression (Expression.isSound_term _ (-3))) rfl hover rfl
  exact ⟨_, _, _, _, _, d, rfl, hd, h⟩

end Builder
end LinModel
