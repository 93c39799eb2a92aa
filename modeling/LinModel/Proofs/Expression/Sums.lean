import LinModel.Proofs.Expression.Formula
import LinModel.Proofs.Expression.GeneralForm

/-!
# Adding up in one pass and in a chain

A list of expressions and numbers can be added up one after the other, from the number zero on.
Every total on the way is then an expression of its own, and is refused where it has a number that
is not finite. Or all of it is added up in one pass over plain coefficients and constants, of which
only the last total is checked. The two come to the same (`Operand.sum_sameTotal_chain`): both give
linear forms with the same names in the same order, those with a zero coefficient among them, and
the same numbers up to the signs of zeros, or both refuse a number that is not finite.

Up to the signs of zeros the running totals are the same at every step (`Sum.unsigned_plus_congr`),
and a total that is not finite stays so whatever is added (`Sum.isFinite_of_plus`): what a
chain refuses on its way is refused at the end of the pass too. Of the arithmetic this needs
`Scalar.LawfulSums` only.

Key definitions: `Operand.sum`, `Operand.chain`, `Expression.Sum.unsigned`, `Operand.SameTotal`.
Key theorems: `Expression.Sum.unsigned_plus_congr`, `Expression.Sum.isFinite_of_plus`,
`Operand.addNext_form`, `Operand.sum_sameTotal_chain`.
-/
namespace LinModel

variable {K : Type} [Scalar K]

/-! ### Two ways to add up -/

/-- Coefficients without the signs of zeros. -/
def Coefficients.unsigned (cs : Coefficients K) : Coefficients K := cs.mapValues Scalar.unsignZero

namespace Expression.Sum

/-- The linear form of a total. -/
def form (s : Sum K) : Expression K := .linear s.coefficients s.constant

/-- The linear form of a total as an operand, unless one of its numbers is not finite. -/
def checked (s : Sum K) : Except (OperatorError K) (Operand K) :=
  .expression <$> (ofCoefficients s.coefficients s.constant).mapError .expression

/-- All numbers of a total are finite. -/
structure IsFinite (s : Sum K) : Prop where
  coefficients : s.coefficients.AreFinite
  constant : Scalar.isFinite s.constant = true

/-- A total without the signs of zeros. -/
def unsigned (s : Sum K) : Sum K := ⟨s.coefficients.unsigned, Scalar.unsignZero s.constant⟩

end Expression.Sum

namespace Operand

/-- The sum of a list of operands in one pass. -/
def sum (items : List (Operand K)) : Except (OperatorError K) (Operand K) := do
  return .expression (← (Expression.sum (← items.mapM Operand.side)).mapError .expression)

/-- A total and the next operand added up. -/
def addNext (total x : Operand K) : Except (OperatorError K) (Operand K) :=
  .expression <$> total.combine .add x

/-- The sum of a list of operands one after the other, from the number zero on. -/
def chain (items : List (Operand K)) : Except (OperatorError K) (Operand K) :=
  items.foldlM addNext (.number Scalar.zero)

/-- What can be added up: sound expressions and numbers. -/
inductive IsAddend : Operand K → Prop
  | expression {e : Expression K} (h : e.IsSound) : IsAddend (.expression e)
  | number (k : K) : IsAddend (.number k)

/-- Two ways to add up come to the same: to linear forms with the same names in the same order and
the same numbers, up to the signs of zeros, or both to a number that is not finite. -/
inductive SameTotal : Except (OperatorError K) (Operand K) →
    Except (OperatorError K) (Operand K) → Prop
  | forms {s s' : Expression.Sum K} (h : s.unsigned = s'.unsigned) :
      SameTotal (.ok (.expression s.form)) (.ok (.expression s'.form))
  | refused (v v' : K) :
      SameTotal (.error (.expression (.notFinite v))) (.error (.expression (.notFinite v')))

end Operand

/-! ### One coefficient -/

namespace Coefficients

/-- Coefficients with a number added to that of a name. -/
def increase (cs : Coefficients K) (name : VariableName) (value : K) : Coefficients K :=
  cs.put name ((cs.find? name).getD Scalar.zero + value)

theorem increase_cons (m name : VariableName) (c value : K) (cs : Coefficients K) :
    increase ((m, c) :: cs) name value
      = if m = name then (m, c + value) :: cs else (m, c) :: cs.increase name value := by
  simp only [increase, Entries.put_cons, Entries.find?_cons, beq_iff_eq]
  split_ifs <;> rfl

theorem mergeInto_cons (f : K → K) (start added : Coefficients K) (name : VariableName) (c : K) :
    Expression.mergeInto f start ((name, c) :: added)
      = Expression.mergeInto f (start.increase name (f c)) added := rfl

/-- Coefficients of new names are merged behind the others, each added to zero. -/
theorem mergeInto_of_disjoint (f : K → K) : ∀ (added start : Coefficients K),
    added.keys.Nodup → (∀ name ∈ added.keys, name ∉ start.keys) →
    Expression.mergeInto f start added = start ++ added.mapValues (Scalar.zero + f ·)
  | [], start, _, _ => (List.append_nil start).symm
  | (name, c) :: added, start, hn, hd => by
    obtain ⟨hname, hn⟩ := List.nodup_cons.mp hn
    have hnew : name ∉ start.keys := hd name List.mem_cons_self
    have hput : start.increase name (f c) = start ++ [(name, Scalar.zero + f c)] := by
      rw [increase, Entries.find?_eq_none_of_not_mem hnew]
      exact Entries.put_of_not_mem _ hnew
    have hrest : ∀ m ∈ Entries.keys added,
        m ∉ Entries.keys (start ++ [(name, Scalar.zero + f c)]) := by
      intro m hm hmem
      rw [Entries.keys, List.map_append, List.mem_append] at hmem
      rcases hmem with h | h
      · exact hd m (List.mem_cons_of_mem _ hm) h
      · cases List.mem_singleton.mp h
        exact hname hm
    rw [mergeInto_cons, hput, mergeInto_of_disjoint f added _ hn hrest, List.append_assoc]
    rfl

section Unsigned

variable [Scalar.LawfulZeros K]

theorem areFinite_unsigned {cs : Coefficients K} : cs.unsigned.AreFinite ↔ cs.AreFinite := by
  simp only [AreFinite, unsigned, Entries.mapValues, List.forall_mem_map,
    Scalar.isFinite_unsignZero]

/-- The signs of zeros are lost where something is added. -/
theorem unsigned_increase_congr (name : VariableName) (value : K) :
    ∀ {cs cs' : Coefficients K}, cs.unsigned = cs'.unsigned →
      (cs.increase name value).unsigned = (cs'.increase name value).unsigned
  | [], [], _ => rfl
  | (m, c) :: cs, (m', c') :: cs', h => by
    obtain ⟨hhead, htail⟩ := List.cons.inj h
    obtain ⟨rfl, hc⟩ := Prod.mk.inj hhead
    rw [increase_cons, increase_cons]
    split_ifs
    · exact congrArg₂ List.cons (congrArg _ (Scalar.unsignZero_add_congr hc value)) htail
    · exact congrArg₂ List.cons hhead (unsigned_increase_congr name value htail)

theorem unsigned_mergeInto_congr (f : K → K) : ∀ (added : Coefficients K)
    {cs cs' : Coefficients K}, cs.unsigned = cs'.unsigned →
      unsigned (Expression.mergeInto f cs added) = unsigned (Expression.mergeInto f cs' added)
  | [], _, _, h => h
  | (name, c) :: added, _, _, h =>
    unsigned_mergeInto_congr f added (unsigned_increase_congr name (f c) h)

end Unsigned

section Finite

variable [Scalar.LawfulSums K]

theorem areFinite_of_increase (name : VariableName) (value : K) : ∀ {cs : Coefficients K},
    AreFinite (cs.increase name value) → cs.AreFinite
  | [], _ => List.forall_mem_nil _
  | (m, c) :: cs, h => by
    rw [increase_cons] at h
    split_ifs at h
    · obtain ⟨hc, hcs⟩ := List.forall_mem_cons.mp h
      exact List.forall_mem_cons.mpr ⟨Scalar.LawfulSums.isFinite_of_add hc, hcs⟩
    · obtain ⟨hc, hcs⟩ := List.forall_mem_cons.mp h
      exact List.forall_mem_cons.mpr ⟨hc, areFinite_of_increase name value hcs⟩

theorem areFinite_of_mergeInto (f : K → K) : ∀ (added start : Coefficients K),
    AreFinite (Expression.mergeInto f start added) → start.AreFinite
  | [], _, h => h
  | (name, c) :: added, _, h =>
    areFinite_of_increase name (f c) (areFinite_of_mergeInto f added _ h)

end Finite

end Coefficients

/-! ### Running totals -/

namespace Expression.Sum

variable {s s' : Sum K}

theorem checked_of_isFinite (h : s.IsFinite) : s.checked = .ok (.expression s.form) := by
  have hform : ofCoefficients s.coefficients s.constant = .ok s.form :=
    ofCoefficients_eq_ok.mpr ⟨rfl, h.coefficients, h.constant⟩
  rw [checked, hform]
  rfl

theorem checked_of_not_isFinite (h : ¬s.IsFinite) :
    ∃ v, s.checked = .error (.expression (.notFinite v)) := by
  have hnot : ¬(s.coefficients.AreFinite ∧ Scalar.isFinite s.constant = true) :=
    fun hfinite => h ⟨hfinite.1, hfinite.2⟩
  obtain ⟨v, hv⟩ := ofCoefficients_of_not hnot
  refine ⟨v, ?_⟩
  rw [checked, hv]
  rfl

theorem eq_form_of_checked {o : Operand K} (h : s.checked = .ok o) : o = .expression s.form := by
  by_cases hs : s.IsFinite
  · rw [checked_of_isFinite hs] at h
    exact (Except.ok.inj h).symm
  · obtain ⟨v, hv⟩ := checked_of_not_isFinite hs
    rw [hv] at h
    cases h

section Unsigned

variable [Scalar.LawfulZeros K]

theorem isFinite_unsigned : s.unsigned.IsFinite ↔ s.IsFinite := by
  constructor
  · rintro ⟨hcs, hk⟩
    exact ⟨Coefficients.areFinite_unsigned.mp hcs, Scalar.isFinite_unsignZero.symm.trans hk⟩
  · rintro ⟨hcs, hk⟩
    exact ⟨Coefficients.areFinite_unsigned.mpr hcs, Scalar.isFinite_unsignZero.trans hk⟩

/-- **Totals that are the same up to the signs of zeros stay so** when the same is added. -/
theorem unsigned_plus_congr (h : s.unsigned = s'.unsigned) (e : Expression K) :
    (s.plus e).unsigned = (s'.plus e).unsigned := by
  obtain ⟨hcs, hk⟩ := Sum.mk.inj h
  exact congrArg₂ Sum.mk (Coefficients.unsigned_mergeInto_congr id e.coefficients hcs)
    (Scalar.unsignZero_add_congr hk e.constant)

end Unsigned

/-- **A total that is not finite stays so**, whatever is added. -/
theorem isFinite_of_plus [Scalar.LawfulSums K] {e : Expression K} (h : (s.plus e).IsFinite) :
    s.IsFinite where
  coefficients := Coefficients.areFinite_of_mergeInto id _ _ h.coefficients
  constant := Scalar.LawfulSums.isFinite_of_add h.constant

/-- The first expression on its own, and added to nothing. -/
theorem unsigned_first [Scalar.LawfulSums K] {e : Expression K} (h : e.IsSound) :
    (Sum.plus ⟨[], Scalar.zero⟩ e).unsigned
      = unsigned ⟨e.coefficients, e.constant + Scalar.zero⟩ := by
  have hzero : Scalar.isZero (Scalar.zero : K) = true := Scalar.LawfulZeros.isZero_zero
  have hmerge : mergeInto id [] e.coefficients = e.coefficients.mapValues (Scalar.zero + ·) :=
    Coefficients.mergeInto_of_disjoint id e.coefficients [] h.nodup fun _ _ => nofun
  have hcs : Coefficients.unsigned (mergeInto id [] e.coefficients) = e.coefficients.unsigned := by
    rw [hmerge, Coefficients.unsigned, Coefficients.unsigned, Entries.mapValues, Entries.mapValues,
      Entries.mapValues, List.map_map]
    exact List.map_congr_left fun entry _ =>
      congrArg (entry.1, ·) (Scalar.unsignZero_zero_add hzero)
  have hk : Scalar.unsignZero (Scalar.zero + e.constant)
      = Scalar.unsignZero (e.constant + Scalar.zero) := by
    rw [Scalar.unsignZero_zero_add hzero, Scalar.unsignZero_add_zero hzero]
  exact congrArg₂ Sum.mk hcs hk

end Expression.Sum

/-! ### The pass and the chain -/

namespace Operand

open Expression (Sum)

variable {s s' : Sum K} {x : Operand K} {items : List (Operand K)}

/-- The sum in one pass from a total on. -/
def sumFrom (s : Sum K) (items : List (Operand K)) : Except (OperatorError K) (Operand K) := do
  let es ← items.mapM Operand.side
  (es.foldl Sum.plus s).checked

theorem sum_eq_sumFrom (items : List (Operand K)) : sum items = sumFrom ⟨[], Scalar.zero⟩ items :=
  rfl

theorem sumFrom_cons (s : Sum K) (x : Operand K) (items : List (Operand K)) :
    sumFrom s (x :: items) = (x.side >>= fun e => sumFrom (s.plus e) items) := by
  cases hx : x.side with
  | error r => simp only [sumFrom, List.mapM_cons, hx, error_bind]
  | ok e =>
    simp only [sumFrom, List.mapM_cons, hx, ok_bind]
    cases items.mapM Operand.side with
    | error r => rfl
    | ok es => rfl

theorem item_number (k : K) : Operand.side (.number k)
    = if Scalar.isFinite k then .ok (.linear [] k) else .error (.expression (.notFinite k)) := by
  by_cases hk : Scalar.isFinite k = true
  · simp [Operand.side, toExpression, Expression.ofScalar, Expression.ofCoefficients, hk]
  · simp [Operand.side, toExpression, Expression.ofScalar, Expression.ofCoefficients, hk,
      Except.mapError]

/-- What can be added up stands for an expression, unless it is a number that is not finite. -/
theorem IsAddend.item (h : x.IsAddend) : (∃ e, x.side = .ok e) ∨
    ∃ v, x.side = .error (.expression (.notFinite v)) := by
  cases h with
  | @expression e h => exact .inl ⟨e, rfl⟩
  | number k =>
    rw [item_number]
    split
    · exact .inl ⟨_, rfl⟩
    · exact .inr ⟨k, rfl⟩

section Lawful

variable [Scalar.LawfulSums K]

/-- **A step of a chain is a step of the pass**, followed by a check. -/
theorem addNext_form (s : Sum K) (hx : x.IsAddend) :
    addNext (.expression s.form) x = (x.side >>= fun e => (s.plus e).checked) := by
  cases hx with
  | @expression e h =>
    have hone : (Scalar.one * · : K → K) = id := funext Scalar.LawfulSums.one_mul
    have hadd : s.form.add e = Expression.ofCoefficients
        (Expression.mergeInto (Scalar.one * ·) s.coefficients e.coefficients)
        (s.constant + Scalar.one * e.constant) := rfl
    rw [hone, Scalar.LawfulSums.one_mul] at hadd
    change Operand.expression <$> (s.form.add e).mapError OperatorError.expression = _
    rw [hadd]
    rfl
  | number k =>
    change Operand.expression <$> (s.form.addScalar k).mapError OperatorError.expression = _
    rw [item_number, Expression.addScalar, Expression.finite]
    split
    · rfl
    · rfl

/-- The pass refuses a number that is not finite once its total is not. -/
theorem sumFrom_of_not_isFinite : ∀ {items : List (Operand K)} {s : Sum K}, ¬s.IsFinite →
    (∀ x ∈ items, x.IsAddend) → ∃ v, sumFrom s items = .error (.expression (.notFinite v))
  | [], _, hs, _ => Sum.checked_of_not_isFinite hs
  | x :: items, s, hs, h => by
    obtain ⟨hx, hitems⟩ := List.forall_mem_cons.mp h
    rw [sumFrom_cons]
    obtain ⟨e, he⟩ | ⟨v, hv⟩ := hx.item
    · rw [he]
      exact sumFrom_of_not_isFinite (mt Sum.isFinite_of_plus hs) hitems
    · rw [hv]
      exact ⟨v, rfl⟩

/-- The pass and the chain go on from totals that are the same up to the signs of zeros. -/
theorem sumFrom_sameTotal : ∀ {items : List (Operand K)} {s s' : Sum K},
    s.unsigned = s'.unsigned → s'.IsFinite → (∀ x ∈ items, x.IsAddend) →
      SameTotal (sumFrom s items) (items.foldlM addNext (.expression s'.form))
  | [], s, s', h, hs', _ => by
    have hs : s.IsFinite := Sum.isFinite_unsigned.mp (h ▸ Sum.isFinite_unsigned.mpr hs')
    have hpass : sumFrom s [] = .ok (.expression s.form) := Sum.checked_of_isFinite hs
    rw [hpass]
    exact .forms h
  | x :: items, s, s', h, hs', hitems => by
    obtain ⟨hx, hitems⟩ := List.forall_mem_cons.mp hitems
    rw [sumFrom_cons, List.foldlM_cons, addNext_form s' hx]
    obtain ⟨e, he⟩ | ⟨v, hv⟩ := hx.item
    · have hplus := Sum.unsigned_plus_congr h e
      rw [he, ok_bind, ok_bind]
      by_cases hfinite : (s'.plus e).IsFinite
      · rw [Sum.checked_of_isFinite hfinite, ok_bind]
        exact sumFrom_sameTotal hplus hfinite hitems
      · -- the chain ends here, the pass at its end
        have hpass : ¬(s.plus e).IsFinite := fun hs =>
          hfinite (Sum.isFinite_unsigned.mp (hplus ▸ Sum.isFinite_unsigned.mpr hs))
        obtain ⟨v, hv⟩ := sumFrom_of_not_isFinite hpass hitems
        obtain ⟨v', hv'⟩ := Sum.checked_of_not_isFinite hfinite
        rw [hv, hv', error_bind]
        exact .refused v v'
    · rw [hv, error_bind, error_bind]
      exact .refused v v

end Lawful

theorem mem_names_of_item {name : VariableName} {f : Expression K} (h : x.side = .ok f) :
    name ∈ f.names ↔ ∃ g, x = .expression g ∧ name ∈ g.names := by
  cases x with
  | expression g =>
    cases h
    simp
  | number k =>
    rw [item_number] at h
    split at h
    · cases h
      exact ⟨nofun, nofun⟩
    · cases h
  | other shown => cases h

theorem mem_names_of_sumFrom {name : VariableName} {e : Expression K} :
    ∀ {items : List (Operand K)} {s : Sum K}, sumFrom s items = .ok (.expression e) →
      (name ∈ e.names ↔ name ∈ s.form.names ∨ ∃ f, .expression f ∈ items ∧ name ∈ f.names)
  | [], s, h => by
    have hform : Operand.expression e = .expression s.form := Sum.eq_form_of_checked h
    cases hform
    simp
  | x :: items, s, h => by
    rw [sumFrom_cons] at h
    obtain ⟨f, hf, hrest⟩ := bind_eq_ok.mp h
    have hplus : name ∈ (s.plus f).form.names ↔ name ∈ s.form.names ∨ name ∈ f.names :=
      (Expression.mergeInto_keys id f.coefficients s.coefficients).1 name
    rw [mem_names_of_sumFrom hrest, hplus, mem_names_of_item hf, or_assoc]
    simp only [List.mem_cons, or_and_right, exists_or, eq_comm]

/-- **A sum in one pass is a chain of additions.** For a sound expression and any expressions and
numbers behind it, the pass and the chain give linear forms with the same names in the same order
and the same numbers up to the signs of zeros, or both refuse a number that is not finite. The
names are all those of the items, whatever their coefficients come to. -/
theorem sum_sameTotal_chain [Scalar.LawfulSums K] (e : Expression K) (rest : List (Operand K))
    (he : e.IsSound) (hrest : ∀ x ∈ rest, x.IsAddend) :
    SameTotal (sum (.expression e :: rest)) (chain (.expression e :: rest)) ∧
      ∀ f, sum (.expression e :: rest) = .ok (.expression f) →
        ∀ name, name ∈ f.names ↔ ∃ g, .expression g ∈ .expression e :: rest ∧ name ∈ g.names := by
  constructor
  · have hzero : Scalar.isFinite (Scalar.zero : K) = true := Scalar.LawfulUnits.isFinite_zero
    have hisZero : Scalar.isZero (Scalar.zero : K) = true := Scalar.LawfulZeros.isZero_zero
    have hstart : Sum.IsFinite ⟨e.coefficients, e.constant + Scalar.zero⟩ := by
      refine ⟨he.finite, ?_⟩
      change Scalar.isFinite (e.constant + Scalar.zero) = true
      rw [← Scalar.isFinite_unsignZero, Scalar.unsignZero_add_zero hisZero,
        Scalar.isFinite_unsignZero]
      exact he.finite_constant
    have hfirst : addNext (.number Scalar.zero) (.expression e)
        = Sum.checked ⟨e.coefficients, e.constant + Scalar.zero⟩ := by
      change Operand.expression <$> (e.addScalar Scalar.zero).mapError OperatorError.expression = _
      rw [Expression.addScalar, Expression.finite, if_pos hzero]
      rfl
    rw [sum_eq_sumFrom, sumFrom_cons, chain, List.foldlM_cons, hfirst,
      Sum.checked_of_isFinite hstart]
    exact sumFrom_sameTotal (Sum.unsigned_first he) hstart hrest
  · intro f hf name
    rw [sum_eq_sumFrom] at hf
    rw [mem_names_of_sumFrom hf]
    simp [Sum.form, Expression.names, Expression.coefficients]

/-- Two names, of which the first is taken away again, and a number. -/
def cancelling : List (Operand Float) :=
  [.expression (.linear [(.automatic 1, 1.0), (.automatic 2, 1.0)] 0.0),
    .expression (single (-1.0)), .number 2.5]

/-- A coefficient that leaves the doubles on the way. -/
def overflowing : List (Operand Float) :=
  [.expression (single 1e308), .expression (single 1e308), .expression (single (-1e308))]

theorem isSound_cancelling :
    (Expression.linear [(.automatic 1, (1.0 : Float)), (.automatic 2, 1.0)] 0.0).IsSound where
  finite := by
    have hone : Scalar.isFinite (1.0 : Float) = true := by decide +kernel
    simp [Coefficients.AreFinite, Expression.coefficients, hone]
  finite_constant := by decide +kernel
  nodup := by decide +kernel

/-- A name that cancels stays, with the coefficient zero; and what leaves the doubles is refused,
although it is taken away again. -/
theorem cancelling_and_overflowing_agree :
    (∀ x ∈ cancelling.tail ++ overflowing.tail, x.IsAddend) ∧
      SameTotal (sum cancelling) (chain cancelling) ∧
      chain cancelling
        = .ok (.expression (.linear [(.automatic 1, 0.0), (.automatic 2, 1.0)] 2.5)) ∧
      (∀ f, sum cancelling = .ok (.expression f) →
        ∀ name, name ∈ f.names ↔ ∃ g, .expression g ∈ cancelling ∧ name ∈ g.names) ∧
      SameTotal (sum overflowing) (chain overflowing) ∧ (chain overflowing).isOk = false := by
  have hsingle : ∀ c : Float, Scalar.isFinite c = true → IsAddend (.expression (single c)) :=
    fun c hc => .expression (isSound_single hc)
  have hlarge : Scalar.isFinite (1e308 : Float) = true := by decide +kernel
  have hcancel : ∀ x ∈ cancelling.tail, x.IsAddend := by
    simp only [cancelling, List.tail_cons, List.forall_mem_cons]
    exact ⟨hsingle _ (by decide +kernel), .number _, List.forall_mem_nil _⟩
  have hover : ∀ x ∈ overflowing.tail, x.IsAddend := by
    simp only [overflowing, List.tail_cons, List.forall_mem_cons]
    exact ⟨hsingle _ hlarge, hsingle _ (by decide +kernel), List.forall_mem_nil _⟩
  obtain ⟨hsame, hnames⟩ := sum_sameTotal_chain _ _ isSound_cancelling hcancel
  refine ⟨List.forall_mem_append.mpr ⟨hcancel, hover⟩, hsame, rfl, hnames, ?_, by decide +kernel⟩
  exact (sum_sameTotal_chain _ _ (isSound_single hlarge) hover).1

end Operand
end LinModel
