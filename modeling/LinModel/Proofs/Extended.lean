import Mathlib.Data.Rat.Floor
import Mathlib.Tactic
import LinModel.Scalar

/-!
# Rationals with infinities

Double arithmetic read exactly: a number is a rational, one of two infinities, or NaN. Rationals
are added and multiplied without rounding, and whatever involves an infinity or NaN follows the
rules for doubles. There is one zero, without a sign, and a quotient by it has the sign of the
dividend.

What is finite is a rational (`isFinite_iff`), and arithmetic stays among the rationals
(`rational_add` and so on), so a computation over finite numbers is one over `ℚ`.

Key definitions: `Extended`, `Extended.toRat`, `Extended.roundEven`.
Key theorems: `Extended.isFinite_iff`, `Extended.roundEven_nearest`.
-/
namespace LinModel

/-- A rational, an infinity, or no number. -/
inductive Extended
  | rational (q : ℚ)
  | infinite (negative : Bool)
  | notANumber
deriving DecidableEq

namespace Extended

/-- The rational that a number is, zero for the others. -/
def toRat : Extended → ℚ
  | .rational q => q
  | _ => 0

/-- The integer nearest to a rational, the even one of two. -/
def roundEven (q : ℚ) : ℤ :=
  let below := ⌊q⌋
  let rest := q - below
  if rest < 1 / 2 then below
  else if 1 / 2 < rest then below + 1
  else if below % 2 = 0 then below else below + 1

/-! ### Arithmetic -/

/-- The opposite. -/
def neg : Extended → Extended
  | .rational q => .rational (-q)
  | .infinite s => .infinite (!s)
  | .notANumber => .notANumber

/-- The sum; opposite infinities have none. -/
def add : Extended → Extended → Extended
  | .rational p, .rational q => .rational (p + q)
  | .rational _, .infinite s | .infinite s, .rational _ => .infinite s
  | .infinite s, .infinite t => if s = t then .infinite s else .notANumber
  | _, _ => .notANumber

/-- An infinity times a rational. -/
def magnify (s : Bool) (q : ℚ) : Extended :=
  if q = 0 then .notANumber else .infinite (s ^^ decide (q < 0))

/-- The product; zero times an infinity is no number. -/
def mul : Extended → Extended → Extended
  | .rational p, .rational q => .rational (p * q)
  | .rational q, .infinite s | .infinite s, .rational q => magnify s q
  | .infinite s, .infinite t => .infinite (s ^^ t)
  | _, _ => .notANumber

/-- The quotient. -/
def div : Extended → Extended → Extended
  | .rational p, .rational q => if q = 0 then magnify false p else .rational (p / q)
  | .rational _, .infinite _ => .rational 0
  | .infinite s, .rational q => .infinite (s ^^ decide (q < 0))
  | _, _ => .notANumber

/-- Whether the first number is below the second. -/
def lt : Extended → Extended → Bool
  | .rational p, .rational q => p < q
  | .rational _, .infinite s => !s
  | .infinite s, .rational _ => s
  | .infinite s, .infinite t => s && !t
  | _, _ => false

/-- Whether two numbers are equal; no number equals itself. -/
def beq : Extended → Extended → Bool
  | .rational p, .rational q => p = q
  | .infinite s, .infinite t => s == t
  | _, _ => false

instance : Scalar Extended where
  add := add
  sub a b := add a (neg b)
  mul := mul
  div := div
  neg := neg
  zero := .rational 0
  one := .rational 1
  infinity := .infinite false
  ofNat n := .rational n
  beq := beq
  lt := lt
  le a b := lt a b || beq a b
  isFinite
    | .rational _ => true
    | _ => false
  isNaN
    | .notANumber => true
    | _ => false
  abs
    | .rational q => .rational |q|
    | .infinite _ => .infinite false
    | .notANumber => .notANumber
  round
    | .rational q => .rational (roundEven q)
    | x => x

section Rationals

variable (p q : ℚ)

@[simp] theorem toRat_rational : (rational q).toRat = q := rfl

@[simp] theorem rational_add : rational p + rational q = rational (p + q) := rfl

@[simp] theorem rational_sub : rational p - rational q = rational (p - q) := by
  rw [sub_eq_add_neg]; rfl

@[simp] theorem rational_mul : rational p * rational q = rational (p * q) := rfl

@[simp] theorem rational_neg : -rational q = rational (-q) := rfl

@[simp] theorem scalar_zero : (Scalar.zero : Extended) = rational 0 := rfl

@[simp] theorem scalar_one : (Scalar.one : Extended) = rational 1 := rfl

@[simp] theorem scalar_infinity : (Scalar.infinity : Extended) = infinite false := rfl

@[simp] theorem scalar_ofNat (n : ℕ) : (Scalar.ofNat n : Extended) = rational n := rfl

@[simp] theorem isFinite_rational : Scalar.isFinite (rational q) = true := rfl

@[simp] theorem isNaN_rational : Scalar.isNaN (rational q) = false := rfl

@[simp] theorem lt_rational : Scalar.lt (rational p) (rational q) = decide (p < q) := rfl

@[simp] theorem beq_rational : Scalar.beq (rational p) (rational q) = decide (p = q) := rfl

@[simp] theorem le_rational : Scalar.le (rational p) (rational q) = decide (p ≤ q) := by
  have h : Scalar.le (rational p) (rational q) = (decide (p < q) || decide (p = q)) := rfl
  rw [h, ← Bool.decide_or]
  exact decide_eq_decide.mpr le_iff_lt_or_eq.symm

@[simp] theorem neg_infinite (s : Bool) : -infinite s = infinite (!s) := rfl

@[simp] theorem rational_le_infinite : Scalar.le (rational q) (infinite false) = true := rfl

@[simp] theorem infinite_le_rational : Scalar.le (infinite true) (rational q) = true := rfl

@[simp] theorem abs_rational : Scalar.abs (rational q) = rational |q| := rfl

@[simp] theorem round_rational : Scalar.round (rational q) = rational (roundEven q) := rfl

theorem rational_div {q : ℚ} (h : q ≠ 0) : rational p / rational q = rational (p / q) :=
  if_neg h

end Rationals

/-! ### Special values in sums -/

@[simp] theorem add_rational_zero (x : Extended) : x + rational 0 = x := by
  cases x with
  | rational q => rw [rational_add]; ring_nf
  | infinite s => rfl
  | notANumber => rfl

@[simp] theorem rational_zero_add (x : Extended) : rational 0 + x = x := by
  cases x with
  | rational q => rw [rational_add]; ring_nf
  | infinite s => rfl
  | notANumber => rfl

/-! ### Finite numbers -/

theorem isFinite_iff {x : Extended} : Scalar.isFinite x = true ↔ ∃ q, x = rational q := by
  constructor
  · intro h
    cases x with
    | rational q => exact ⟨q, rfl⟩
    | infinite s => cases h
    | notANumber => cases h
  · rintro ⟨q, rfl⟩
    rfl

theorem isNaN_cases {x : Extended} (h : Scalar.isNaN x = false) :
    (∃ q, x = rational q) ∨ ∃ s, x = infinite s := by
  cases x with
  | rational q => exact .inl ⟨q, rfl⟩
  | infinite s => exact .inr ⟨s, rfl⟩
  | notANumber => cases h

instance : Scalar.LawfulUnits Extended where
  isFinite_zero := rfl
  isFinite_one := rfl

theorem isZero_iff {x : Extended} : Scalar.isZero x = true ↔ x = rational 0 := by
  constructor
  · intro h
    cases x with
    | rational q => exact congrArg rational (of_decide_eq_true h)
    | infinite s => cases h
    | notANumber => cases h
  · rintro rfl
    rfl

instance : Scalar.LawfulZeros Extended where
  isZero_zero := rfl
  isFinite_of_isZero h := by
    rw [isZero_iff.mp h]
    rfl
  isFinite_neg_one := rfl
  isZero_neg h := by
    rw [isZero_iff.mp h, rational_neg, neg_zero]
    rfl
  zero_add a h := by
    rw [isZero_iff.mp h]
    exact .inl (rational_zero_add a)
  isZero_mul h ha := by
    obtain ⟨q, rfl⟩ := isFinite_iff.mp ha
    rw [isZero_iff.mp h, rational_mul, zero_mul]
    rfl
  mul_isZero ha h := by
    obtain ⟨q, rfl⟩ := isFinite_iff.mp ha
    rw [isZero_iff.mp h, rational_mul, mul_zero]
    rfl
  isZero_div {z a} h ha hne := by
    obtain ⟨q, rfl⟩ := isFinite_iff.mp ha
    have hq : q ≠ 0 := by
      rintro rfl
      cases hne
    rw [isZero_iff.mp h, rational_div _ hq, zero_div]
    rfl

instance : Scalar.LawfulBounds Extended where
  isNaN_of_isFinite h := by
    obtain ⟨q, rfl⟩ := isFinite_iff.mp h
    rfl
  isFinite_neg h := by
    obtain ⟨q, rfl⟩ := isFinite_iff.mp h
    rfl
  isFinite_infinity := rfl
  isFinite_neg_infinity := rfl
  isFinite_eq_of_beq {a b} h := by
    cases a <;> cases b <;> first
      | rfl
      | cases h
  beq_self h := by
    obtain ⟨q, rfl⟩ := isFinite_iff.mp h
    simp
  le_self h := by
    obtain ⟨q, rfl⟩ := isFinite_iff.mp h
    simp
  le_infinity h := by
    obtain ⟨q, rfl⟩ := isFinite_iff.mp h
    rfl
  neg_infinity_le h := by
    obtain ⟨q, rfl⟩ := isFinite_iff.mp h
    rfl
  zero_le_one := by simp
  le_of_not_lt {a b} ha hb h := by
    rcases isNaN_cases ha with ⟨p, rfl⟩ | ⟨_ | _, rfl⟩ <;>
      rcases isNaN_cases hb with ⟨q, rfl⟩ | ⟨_ | _, rfl⟩ <;> first
        | rfl
        | cases h
        | simpa using h

theorem le_iff_not_lt {a b : Extended} (ha : Scalar.isNaN a = false) (hb : Scalar.isNaN b = false) :
    Scalar.le a b = true ↔ Scalar.lt b a = false := by
  refine ⟨fun h => ?_, Scalar.LawfulBounds.le_of_not_lt ha hb⟩
  rcases isNaN_cases ha with ⟨p, rfl⟩ | ⟨_ | _, rfl⟩ <;>
    rcases isNaN_cases hb with ⟨q, rfl⟩ | ⟨_ | _, rfl⟩ <;> first
      | rfl
      | cases h
      | simpa using h

/-! ### Rounding -/

/-- No integer is nearer to a rational than the one it is rounded to. -/
theorem roundEven_nearest (q : ℚ) (n : ℤ) : |q - roundEven q| ≤ |q - n| := by
  have hlow : (⌊q⌋ : ℚ) ≤ q := Int.floor_le q
  have hhigh : q < ⌊q⌋ + 1 := Int.lt_floor_add_one q
  have habove : |q - (⌊q⌋ + 1 : ℤ)| = ⌊q⌋ + 1 - q := by
    push_cast
    rw [abs_sub_comm, abs_of_pos (by linarith)]
  have hbelow : |q - ⌊q⌋| = q - ⌊q⌋ := abs_of_nonneg (by linarith)
  -- an integer up to the floor is as far as the floor, any other as far as the next integer
  have hfar : q - ⌊q⌋ ≤ |q - n| ∨ ⌊q⌋ + 1 - q ≤ |q - n| := by
    rcases le_or_gt n ⌊q⌋ with hn | hn
    · left
      have : (n : ℚ) ≤ ⌊q⌋ := by exact_mod_cast hn
      exact le_trans (by linarith) (le_abs_self _)
    · right
      have : (⌊q⌋ : ℚ) + 1 ≤ n := by exact_mod_cast hn
      exact le_trans (by linarith) (neg_le_abs _)
  unfold roundEven
  simp only
  split_ifs with h1 h2 h3
  · rw [hbelow]
    rcases hfar with h | h <;> linarith
  · rw [habove]
    rcases hfar with h | h <;> linarith
  · rw [hbelow]
    rcases hfar with h | h <;> linarith
  · rw [habove]
    rcases hfar with h | h <;> linarith

example : roundEven (5 / 2) = 2 ∧ roundEven (7 / 2) = 4 ∧ roundEven (-5 / 2) = -2 := by
  decide +kernel

end Extended
end LinModel
