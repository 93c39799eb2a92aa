import LinModel.Proofs.Dense
import LinModel.Solving.Solution

/-!
# What a report lists

A report lists the amounts above a tolerance. A value is farther outside a range than a tolerance
of at least zero if the distance to one of the ends is (`lt_rangeViolation`), also if an end is
infinite, and farther from the nearest integer if it is from every integer
(`lt_distanceToInteger`). So the report on a point is clean if no constraint and no variable is
violated by more than the tolerance there (`Violations.isClean_iff`).

Key definitions: `CompiledConstraint.ExceedsAt`, `CompiledVariable.ExceedsAt`,
`CompiledVariable.IsFractionalAt`.
Key theorems: `lt_rangeViolation`, `lt_distanceToInteger`, `Violations.isClean_iff`.
-/
namespace LinModel

open Extended

variable {L : Type}

/-! ### Amounts above a tolerance -/

namespace Extended

@[simp] theorem lt_infinite (q : ℚ) (s : Bool) :
    Scalar.lt (rational q) (infinite s) = !s := rfl

@[simp] theorem infinite_lt_rational (s : Bool) (q : ℚ) :
    Scalar.lt (infinite s) (rational q) = s := rfl

@[simp] theorem infinite_lt (s t : Bool) :
    Scalar.lt (infinite s) (infinite t) = (s && !t) := rfl

@[simp] theorem isNaN_infinite (s : Bool) : Scalar.isNaN (infinite s) = false := rfl

@[simp] theorem infinite_sub (s : Bool) (q : ℚ) : infinite s - rational q = infinite s := rfl

@[simp] theorem rational_sub_infinite (q : ℚ) (s : Bool) :
    rational q - infinite s = infinite (!s) := rfl

theorem nonneg_cases {t : Extended} (h : Scalar.le Scalar.zero t = true) :
    (∃ q, t = rational q ∧ 0 ≤ q) ∨ t = infinite false := by
  cases t with
  | rational q => exact .inl ⟨q, rfl, by simpa using h⟩
  | infinite s =>
    cases s with
    | false => exact .inr rfl
    | true => cases h
  | notANumber => cases h

/-- The place of a number in order, infinities at the ends. -/
def place : Extended → WithBot (WithTop ℚ)
  | .rational q => (q : WithTop ℚ)
  | .infinite false => (⊤ : WithTop ℚ)
  | _ => ⊥

theorem lt_iff_place : ∀ {x y : Extended}, Scalar.isNaN x = false → Scalar.isNaN y = false →
    (Scalar.lt x y = true ↔ x.place < y.place)
  | .rational p, .rational q, _, _ => by simp [place]
  | .rational p, .infinite false, _, _ =>
    iff_of_true rfl (WithBot.coe_lt_coe.mpr (WithTop.coe_lt_top p))
  | .infinite true, .rational p, _, _ => by simp [place]
  | .infinite false, .rational p, _, _ | .rational p, .infinite true, _, _ => by simp [place]
  | .infinite false, .infinite false, _, _ | .infinite true, .infinite true, _, _ => by
    simp [place]
  | .infinite false, .infinite true, _, _ | .infinite true, .infinite false, _, _ => by
    simp [place]

theorem isNaN_maximum {x y : Extended} (hx : Scalar.isNaN x = false)
    (hy : Scalar.isNaN y = false) : Scalar.isNaN (Scalar.maximum x y) = false := by
  unfold Scalar.maximum
  rw [hx, hy, if_neg Bool.false_ne_true, if_neg Bool.false_ne_true]
  split_ifs
  · exact hy
  · exact hx

theorem place_maximum {x y : Extended} (hx : Scalar.isNaN x = false)
    (hy : Scalar.isNaN y = false) : (Scalar.maximum x y).place = max x.place y.place := by
  unfold Scalar.maximum
  rw [hx, hy, if_neg Bool.false_ne_true, if_neg Bool.false_ne_true]
  split_ifs with h
  · rw [lt_iff_place hx hy] at h
    exact (max_eq_right h.le).symm
  · rw [lt_iff_place hx hy, not_lt] at h
    exact (max_eq_left h).symm

/-- The part above zero is the larger of a number and zero. -/
theorem positivePart_eq_maximum {x : Extended} (hx : Scalar.isNaN x = false) :
    Scalar.positivePart x = Scalar.maximum Scalar.zero x := by
  unfold Scalar.positivePart Scalar.maximum
  rw [hx]
  rfl

end Extended

section Tolerance

variable {t : Extended} (ht : Scalar.le Scalar.zero t = true)

include ht

theorem not_lt_zero : ¬Scalar.lt t Scalar.zero = true := by
  rcases nonneg_cases ht with ⟨r, rfl, hr⟩ | rfl
  · simpa using hr
  · nofun

/-- A value is outside a range by more than `t` if it is so on one side. -/
theorem lt_rangeViolation (a : ℚ) {low high : Extended} (hlow : Scalar.isNaN low = false)
    (hhigh : Scalar.isNaN high = false) :
    Scalar.lt t (rangeViolation (rational a) low high) = true ↔
      Scalar.lt t (low - rational a) = true ∨ Scalar.lt t (rational a - high) = true := by
  have hl : Scalar.isNaN (low - rational a) = false := by
    rcases isNaN_cases hlow with ⟨p, rfl⟩ | ⟨b, rfl⟩ <;> simp
  have hh : Scalar.isNaN (rational a - high) = false := by
    rcases isNaN_cases hhigh with ⟨p, rfl⟩ | ⟨b, rfl⟩ <;> simp
  have hm := isNaN_maximum hl hh
  have hnan : Scalar.isNaN t = false := by
    rcases nonneg_cases ht with ⟨r, rfl, -⟩ | rfl <;> rfl
  have hzero : ¬t.place < (rational 0).place := by
    rw [← lt_iff_place hnan rfl]
    exact not_lt_zero ht
  rw [rangeViolation, positivePart_eq_maximum hm, lt_iff_place hnan (isNaN_maximum rfl hm),
    place_maximum rfl hm, place_maximum hl hh, lt_max_iff, lt_max_iff, lt_iff_place hnan hl,
    lt_iff_place hnan hh]
  exact or_iff_right hzero

/-- A value is farther than `t` from the nearest integer if it is so from every integer. -/
theorem lt_distanceToInteger (q : ℚ) :
    Scalar.lt t (Scalar.distanceToInteger (rational q)) = true ↔
      ∀ n : ℤ, Scalar.lt t (rational |q - n|) = true := by
  rw [Scalar.distanceToInteger, round_rational, rational_sub, abs_rational]
  refine ⟨fun h n => ?_, fun h => h (roundEven q)⟩
  have hnear := roundEven_nearest q n
  rcases nonneg_cases ht with ⟨r, rfl, -⟩ | rfl
  · simp only [lt_rational, decide_eq_true_eq] at h ⊢
    linarith
  · cases h

end Tolerance

/-! ### Reports -/

namespace Violations

/-- Nothing is listed if no amount is above the tolerance. -/
theorem beyond_isEmpty {α : Type} [BEq α] {labels : List α} {amounts : List Extended}
    {t : Extended} (h : labels.length = amounts.length) :
    (beyond labels amounts t).isEmpty = true ↔ ∀ a ∈ amounts, ¬Scalar.lt t a = true := by
  rw [List.isEmpty_iff, beyond, Entries.ofList_eq_nil_iff, List.filter_eq_nil_iff]
  constructor
  · intro hall a ha
    obtain ⟨i, hi, rfl⟩ := List.getElem_of_mem ha
    have hmem : (labels[i], amounts[i]) ∈ labels.zip amounts := by
      rw [List.mem_iff_getElem]
      exact ⟨i, by simpa [h] using hi, by simp⟩
    exact hall _ hmem
  · intro hall entry hentry
    exact hall entry.2 (List.of_mem_zip hentry).2

end Violations

/-- The terms are out of the range by more than `t`. -/
def CompiledConstraint.ExceedsAt (c : CompiledConstraint Extended L) (t : Extended) (v : Point) :
    Prop :=
  Scalar.lt t (c.lower - c.coefficients.activityAt v) = true ∨
    Scalar.lt t (c.coefficients.activityAt v - c.upper) = true

/-- The value is out of the bounds by more than `t`. -/
def CompiledVariable.ExceedsAt (x : CompiledVariable Extended) (t : Extended) (v : Point) : Prop :=
  Scalar.lt t (x.lower - rational (v x.name)) = true ∨
    Scalar.lt t (rational (v x.name) - x.upper) = true

/-- The value should be an integer and is farther than `t` from each. -/
def CompiledVariable.IsFractionalAt (x : CompiledVariable Extended) (t : Extended) (v : Point) :
    Prop :=
  x.kind.isDiscrete = true ∧ ∀ n : ℤ, Scalar.lt t (rational |v x.name - n|) = true

/-- **A report is clean if nothing is violated by more than the tolerance.** -/
theorem Violations.isClean_iff [BEq L] (byIndex : ℕ → L) {p : Problem Extended L}
    (hs : p.IsSound) (hb : p.IsBounded) {d : DenseModel Extended}
    (horder : d.order = p.names.map (·.text)) (hd : d.Measures p) {t : Extended}
    (ht : Scalar.le Scalar.zero t = true) (v : Point) :
    (ofAssignment byIndex p d (p.vectorAt v) t).isClean = true ↔
      (∀ c ∈ p.constraints, ¬c.ExceedsAt t v) ∧ (∀ x ∈ p.vars, ¬x.ExceedsAt t v) ∧
        ∀ x ∈ p.vars, ¬x.IsFractionalAt t v := by
  have hvars : d.order.length = p.vars.length := by simp [horder, Problem.names]
  simp only [isClean, ofAssignment, measured, Bool.and_eq_true, and_assoc]
  rw [hd.constraints, hd.bounds, hd.integrality, beyond_isEmpty (by simp [labels]),
    beyond_isEmpty (by simp [hvars]), beyond_isEmpty (by simp [hvars])]
  simp only [List.forall_mem_map]
  refine and_congr (forall₂_congr fun c hc => ?_) (and_congr (forall₂_congr fun x hx => ?_)
    (forall₂_congr fun x hx => ?_))
  · obtain ⟨hlower, hupper, -⟩ := hb.constraints c hc
    rw [CompiledConstraint.ExceedsAt, Coefficients.activityAt_eq v (hs.constraints c hc).finite,
      lt_rangeViolation ht _ hlower hupper]
  · obtain ⟨hlower, hupper, -⟩ := hb.vars x hx
    rw [CompiledVariable.ExceedsAt, lt_rangeViolation ht _ hlower hupper]
  · rw [CompiledVariable.IsFractionalAt, ← lt_distanceToInteger ht, Scalar.distanceToInteger,
      round_rational, rational_sub, abs_rational]
    cases x.kind.isDiscrete with
    | true => simp
    | false =>
      have hzero : ¬Scalar.lt t (rational 0) = true := not_lt_zero ht
      simpa using hzero

end LinModel
