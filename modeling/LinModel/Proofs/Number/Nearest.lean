import LinModel.Number.Real
import LinModel.Proofs.Number.Parts

/-!
# Which numbers have a double

A quotient of natural numbers is rounded to the double nearest to it by its bits. The unit of the
mantissa is found from the logarithm (`Number.floorLog2_spec`), and the mantissa is rounded to even.
What is at least `2 ^ 1024 - 2 ^ 970`, halfway between the largest double and the next power of two,
is rounded to that power, which has no double: so these are the quotients with an infinity as the
nearest double (`Number.isFinite_nearest_iff`), and the integers and fractions that do not convert
(`RealNumber.toDouble_cases`).

Key definitions: `Number.largest`, `RealNumber.IsTooLarge`.
Key theorems: `Number.floorLog2_spec`, `Number.le_roundDivEven_iff`, `Number.nearestBits_lt_iff`,
`Number.isFinite_nearest_iff`, `RealNumber.toDouble_cases`.
-/
namespace LinModel.Number

open Float.Model Float.Model.UnpackedFloat

/-! ### Units -/

theorem scale_pos (e : ℤ) : 0 < (Binary.scale e).1 ∧ 0 < (Binary.scale e).2 := by
  unfold Binary.scale
  split_ifs
  · exact ⟨one_pos, Nat.two_pow_pos _⟩
  · exact ⟨Nat.two_pow_pos _, one_pos⟩

theorem scale_eq (e : ℤ) : ((Binary.scale e).1 : ℚ) = 2 ^ e * (Binary.scale e).2 := by
  unfold Binary.scale
  split_ifs with h
  · have he : (2 : ℚ) ^ e = (2 ^ e.natAbs)⁻¹ := by
      rw [← zpow_natCast, ← zpow_neg]
      congr 1
      omega
    rw [he, Nat.pow_eq, Nat.cast_pow, Nat.cast_one, Nat.cast_ofNat]
    exact (inv_mul_cancel₀ (by positivity)).symm
  · have he : (2 : ℚ) ^ e = 2 ^ e.natAbs := by
      rw [← zpow_natCast]
      congr 1
      omega
    rw [he, Nat.pow_eq, Nat.cast_pow, Nat.cast_one, Nat.cast_ofNat, mul_one]

variable {num den : ℕ}

/-- **The logarithm of a quotient**, rounded down. -/
theorem floorLog2_spec (hn : 0 < num) (hd : 0 < den) :
    (2 : ℚ) ^ floorLog2 num den * den ≤ num ∧ (num : ℚ) < 2 ^ (floorLog2 num den + 1) * den := by
  obtain ⟨hnlow, hnhigh⟩ := (Nat.log2_eq_iff hn.ne').mp (rfl : num.log2 = num.log2)
  obtain ⟨hdlow, hdhigh⟩ := (Nat.log2_eq_iff hd.ne').mp (rfl : den.log2 = den.log2)
  set guess : ℤ := (num.log2 : ℤ) - den.log2 with hguess
  have hhigh : (num : ℚ) < 2 ^ (guess + 1) * den := by
    calc (num : ℚ) < 2 ^ (num.log2 + 1) := by exact_mod_cast hnhigh
      _ = 2 ^ (guess + 1) * 2 ^ den.log2 := by
        rw [← zpow_natCast, ← zpow_natCast, ← zpow_add₀ two_ne_zero]
        congr 1
        push_cast
        omega
      _ ≤ 2 ^ (guess + 1) * den := by
        gcongr
        exact_mod_cast hdlow
  have hlow : (2 : ℚ) ^ (guess - 1) * den ≤ num := by
    calc (2 : ℚ) ^ (guess - 1) * den ≤ 2 ^ (guess - 1) * 2 ^ (den.log2 + 1) := by
          gcongr
          exact_mod_cast hdhigh.le
      _ = 2 ^ num.log2 := by
        rw [← zpow_natCast, ← zpow_natCast, ← zpow_add₀ two_ne_zero]
        congr 1
        push_cast
        omega
      _ ≤ num := by exact_mod_cast hnlow
  obtain ⟨-, hpos⟩ := scale_pos guess
  have hcompare : den * (Binary.scale guess).1 ≤ num * (Binary.scale guess).2
      ↔ (2 : ℚ) ^ guess * den ≤ num := by
    rw [← Nat.cast_le (α := ℚ)]
    push_cast
    rw [scale_eq, mul_left_comm, ← mul_assoc]
    exact mul_le_mul_iff_left₀ (by exact_mod_cast hpos)
  have hunfold : floorLog2 num den
      = if den * (Binary.scale guess).1 ≤ num * (Binary.scale guess).2 then guess
        else guess - 1 := rfl
  rw [hunfold]
  split_ifs with h
  · exact ⟨hcompare.mp h, hhigh⟩
  · refine ⟨hlow, ?_⟩
    rw [sub_add_cancel]
    exact not_le.mp (mt hcompare.mpr h)

/-! ### Mantissas -/

/-- A quotient is rounded to an even number or above from half a unit below it. -/
theorem le_roundDivEven_iff {a b k : ℕ} (hb : 0 < b) (hk : k % 2 = 0) :
    k ≤ roundDivEven a b ↔ 2 * (k * b) ≤ 2 * a + b := by
  have ha : b * (a / b) + a % b = a := Nat.div_add_mod a b
  have hr : a % b < b := Nat.mod_lt a hb
  have hround : roundDivEven a b
      = if b < 2 * (a % b) ∨ 2 * (a % b) = b ∧ a / b % 2 = 1 then a / b + 1 else a / b := rfl
  rw [hround]
  generalize a / b = q at *
  generalize a % b = r at *
  rw [Nat.mul_comm] at ha
  obtain h | rfl | h : k ≤ q ∨ k = q + 1 ∨ q + 2 ≤ k := by omega
  · have hmul : k * b ≤ q * b := Nat.mul_le_mul_right b h
    exact iff_of_true (by split_ifs <;> omega) (by omega)
  · rw [Nat.add_one_mul q b]
    split_ifs <;> omega
  · have hmul : (q + 2) * b ≤ k * b := Nat.mul_le_mul_right b h
    rw [Nat.add_mul q 2 b] at hmul
    exact iff_of_false (by split_ifs <;> omega) (by omega)

/-- The mantissa of a quotient, rounded, compares with an even number as the quotient does. -/
theorem le_mantissa_iff {unit : ℤ} {k : ℕ} (hd : 0 < den) (hk : k % 2 = 0) :
    k ≤ roundDivEven (num * (Binary.scale unit).2) (den * (Binary.scale unit).1)
      ↔ ((k : ℚ) - 1 / 2) * 2 ^ unit * den ≤ num := by
  obtain ⟨hn, hd'⟩ := scale_pos unit
  have hpos : (0 : ℚ) < 2 * (Binary.scale unit).2 := by positivity
  rw [le_roundDivEven_iff (Nat.mul_pos hd hn) hk, ← Nat.cast_le (α := ℚ),
    ← mul_le_mul_iff_left₀ hpos (b := ((k : ℚ) - 1 / 2) * 2 ^ unit * den)]
  push_cast
  rw [scale_eq]
  constructor <;> intro h <;> linarith

/-- Where numbers become too large for a double. -/
def largest : ℚ := 2 ^ 1024 - 2 ^ 970

theorem largest_eq : largest = (2 ^ 53 - 1 / 2) * 2 ^ 971 := by
  have hhigh : (2 : ℚ) ^ 1024 = 2 ^ 53 * 2 ^ 971 := by rw [← pow_add]
  have hlow : (2 : ℚ) ^ 971 = 2 ^ 970 * 2 := pow_succ 2 970
  rw [largest, hhigh, hlow]
  -- the power is left out of what is evaluated
  generalize (2 : ℚ) ^ 970 = power
  ring

/-- **The bits are those of a finite double** below the middle between the largest one and the next
power of two. -/
theorem nearestBits_lt_iff (hn : 0 < num) (hd : 0 < den) :
    nearestBits num den < infinityBits ↔ (num : ℚ) < largest * den := by
  obtain ⟨hlow, hhigh⟩ := floorLog2_spec hn hd
  set e := floorLog2 num den with he
  set unit : ℤ := max (e - 52) (-1074) with hunit
  set mantissa := roundDivEven (num * (Binary.scale unit).2) (den * (Binary.scale unit).1)
    with hmantissa
  have hle : ∀ k : ℕ, k % 2 = 0 →
      (k ≤ mantissa ↔ ((k : ℚ) - 1 / 2) * 2 ^ unit * den ≤ num) := fun k => le_mantissa_iff hd
  have hbits : nearestBits num den
      = min ((unit + 1074).toNat * 2 ^ 52 + mantissa) infinityBits := by
    unfold nearestBits
    rw [if_neg (by omega)]
    rfl
  have hinfinity : infinityBits = 2045 * 2 ^ 52 + 2 ^ 53 := rfl
  have hdpos : (0 : ℚ) < den := by exact_mod_cast hd
  rw [hbits, hinfinity]
  obtain h | h | h : unit ≤ 970 ∨ unit = 971 ∨ 972 ≤ unit := by omega
  · -- the mantissa is as long as it can be or shorter
    have hnum : (num : ℚ) < 2 ^ 53 * 2 ^ unit * den := by
      calc (num : ℚ) < 2 ^ (e + 1) * den := hhigh
        _ ≤ 2 ^ (unit + 53) * den := by
          have hpow : (2 : ℚ) ^ (e + 1) ≤ 2 ^ (unit + 53) :=
            zpow_le_zpow_right₀ one_le_two (by omega)
          gcongr
        _ = 2 ^ 53 * 2 ^ unit * den := by
          rw [zpow_add₀ two_ne_zero, mul_comm (2 ^ unit : ℚ)]
          norm_num
    have hshort : ¬2 ^ 53 + 2 ≤ mantissa := by
      rw [hle _ (by norm_num), not_le]
      refine hnum.trans_le ?_
      push_cast
      gcongr
      norm_num
    refine iff_of_true (by omega) (hnum.trans_le ?_)
    have hpow : (2 : ℚ) ^ unit ≤ 2 ^ (970 : ℤ) := zpow_le_zpow_right₀ one_le_two h
    gcongr
    calc (2 : ℚ) ^ 53 * 2 ^ unit ≤ 2 ^ 53 * 2 ^ (970 : ℤ) := by gcongr
      _ = 2 ^ 52 * 2 ^ 971 := by
        rw [zpow_ofNat, ← pow_add, ← pow_add]
      _ ≤ largest := by
        rw [largest_eq]
        gcongr
        norm_num
  · -- the highest exponent: the mantissa must not become longer
    have hlong := hle (2 ^ 53) (by norm_num)
    have hmiddle : (((2 ^ 53 : ℕ) : ℚ) - 1 / 2) * 2 ^ unit = largest := by
      rw [h, largest_eq, zpow_ofNat]
      norm_cast
    rw [hmiddle] at hlong
    rw [← not_le, ← not_le, ← hlong]
    omega
  · have he' : e = unit + 52 := by omega
    have hnum : (2 : ℚ) ^ 1024 * den ≤ num := by
      calc (2 : ℚ) ^ 1024 * den = 2 ^ (1024 : ℤ) * den := by rw [zpow_ofNat]
        _ ≤ 2 ^ e * den := by
          have hpow : (2 : ℚ) ^ (1024 : ℤ) ≤ 2 ^ e := zpow_le_zpow_right₀ one_le_two (by omega)
          gcongr
        _ ≤ num := hlow
    have hfull : 2 ^ 52 ≤ mantissa := by
      rw [hle _ (by norm_num)]
      calc (((2 ^ 52 : ℕ) : ℚ) - 1 / 2) * 2 ^ unit * den ≤ 2 ^ 52 * 2 ^ unit * den := by
            gcongr
            norm_num
        _ = 2 ^ e * den := by
          rw [he', zpow_add₀ two_ne_zero, mul_comm (2 ^ unit : ℚ)]
          norm_num
        _ ≤ num := hlow
    refine iff_of_false (by omega) (not_lt.mpr (le_trans ?_ hnum))
    gcongr
    exact sub_le_self _ (by positivity)

/-! ### Words -/

theorem isFinite_eq (x : Float) : Scalar.isFinite x = (Binary.ofFloat? x).isSome := by
  cases hparts : Binary.ofFloat? x with
  | some b =>
    obtain ⟨s, hs, -⟩ | ⟨s, m, e, hm, hs, -⟩ := unpack_of_parts hparts
    · exact Doubles.isFinite_iff.mpr (.inl ⟨s, hs⟩)
    · exact Doubles.isFinite_iff.mpr (.inr ⟨s, m, e, hm, hs⟩)
  | none =>
    refine Bool.eq_false_iff.mpr fun h => ?_
    obtain ⟨b, hb, -⟩ := exists_parts h
    rw [hparts] at hb
    cases hb

/-- A word up to the infinities, with either sign, is the word of its double. -/
theorem toBits_ofBits {w : UInt64} (h : w.toNat % 2 ^ 63 ≤ infinityBits) :
    (Float.ofBits w).toBits = w := by
  have hinfinity : infinityBits = 2047 * 2 ^ 52 := rfl
  let word : BitVec Format.binary64.numBits := w.toBitVec
  have hword : word.toNat = w.toNat := rfl
  have hvalid : Format.Valid .binary64 word := by
    refine ⟨fun hexponent hmantissa => absurd (BitVec.eq_of_toNat_eq ?_) hmantissa⟩
    have hall : (unpackExponent word).toNat = 2047 := by
      rw [hexponent]
      rfl
    have hzero : (BitVec.ofNat Format.binary64.mantissaBitsWithoutImplicit 0).toNat = 0 := rfl
    rw [toNat_unpackExponent, hword] at hall
    rw [toNat_unpackMantissa, hword, hzero]
    omega
  exact UInt64.toBitVec_inj.mp (pack_unpack_of_valid hvalid)

theorem nearestBits_le (num den : ℕ) : nearestBits num den ≤ infinityBits := by
  unfold nearestBits
  split_ifs
  · exact Nat.zero_le _
  · exact min_le_right _ _

/-- A double has the bits of the quotient that it is nearest to, and its sign. -/
theorem toBits_nearest (negative : Bool) (num den : ℕ) :
    (nearest negative num den).toBits.toNat
      = nearestBits num den + if negative then 2 ^ 63 else 0 := by
  have hle := nearestBits_le num den
  have hinfinity : infinityBits = 2047 * 2 ^ 52 := rfl
  have hword : (UInt64.ofNat (nearestBits num den + if negative then 2 ^ 63 else 0)).toNat
      = nearestBits num den + if negative then 2 ^ 63 else 0 := by
    rw [UInt64.toNat_ofNat']
    split_ifs <;> omega
  have hbound : (UInt64.ofNat (nearestBits num den + if negative then 2 ^ 63 else 0)).toNat % 2 ^ 63
      ≤ infinityBits := by
    rw [hword]
    split_ifs <;> omega
  exact (congrArg UInt64.toNat (toBits_ofBits hbound)).trans hword

/-- **The nearest double is finite** if the quotient is below the middle between the largest double
and the next power of two. -/
theorem isFinite_nearest_iff (negative : Bool) (num : ℕ) (hd : 0 < den) :
    Scalar.isFinite (nearest negative num den) = true ↔ (num : ℚ) < largest * den := by
  have hparts : (Binary.ofFloat? (nearest negative num den)).isSome = true
      ↔ nearestBits num den < infinityBits := by
    have hinfinity : infinityBits = 2047 * 2 ^ 52 := rfl
    have hle := nearestBits_le num den
    unfold Binary.ofFloat?
    simp only [toBits_nearest, Nat.pow_eq]
    split_ifs <;> simp <;> omega
  rw [isFinite_eq, hparts]
  obtain rfl | hn := Nat.eq_zero_or_pos num
  · have hlargest : 0 < largest := by
      rw [largest_eq]
      positivity
    refine iff_of_true ?_ ?_
    · rw [nearestBits, if_pos (.inl rfl)]
      decide
    · rw [Nat.cast_zero]
      positivity
  · exact nearestBits_lt_iff hn hd

/-- A rational number has a finite double next to it if it is below that middle. -/
theorem isFinite_nearest_rat (negative : Bool) (q : ℚ) :
    Scalar.isFinite (nearest negative q.num.natAbs q.den) = true ↔ |q| < largest := by
  have hden : (0 : ℚ) < q.den := by exact_mod_cast q.den_pos
  have hvalue : (q.num.natAbs : ℚ) = |q| * q.den := by
    rw [Nat.cast_natAbs, Int.cast_abs, ← abs_of_pos hden, ← abs_mul, Rat.mul_den_eq_num]
  rw [isFinite_nearest_iff negative _ q.den_pos, hvalue, mul_lt_mul_iff_left₀ hden]

theorem isFinite_nearestInt (n : ℤ) :
    Scalar.isFinite (nearestInt n) = true ↔ |(n : ℚ)| < largest :=
  isFinite_nearest_rat (n < 0) n

end LinModel.Number

/-! ### Conversions -/

namespace LinModel.RealNumber

/-- Whether a number is an integer or a fraction, of any size. -/
def IsExact : RealNumber → Prop
  | .integer _ | .fraction _ => True
  | .double _ | .machine _ => False

/-- An integer or a fraction that has no double. -/
def IsTooLarge : RealNumber → Prop
  | .integer n => Number.largest ≤ |(n : ℚ)|
  | .fraction q => Number.largest ≤ |q|
  | .double _ | .machine _ => False

theorem toDouble_integer (n : ℤ) : (RealNumber.integer n).toDouble
    = if Scalar.isFinite (Number.nearestInt n) = true then .ok (Number.nearestInt n)
      else .error .integerTooLarge := rfl

theorem toDouble_fraction (q : ℚ) : (RealNumber.fraction q).toDouble
    = if Scalar.isFinite (Number.nearest (q < 0) q.num.natAbs q.den) = true
      then .ok (Number.nearest (q < 0) q.num.natAbs q.den) else .error .quotientTooLarge := rfl

/-- **What is too large does not convert**, and everything else does; an integer or a fraction to a
finite double. -/
theorem toDouble_cases (r : RealNumber) :
    (r.IsTooLarge ∧ ∃ e, r.toDouble = .error e) ∨
      ¬r.IsTooLarge ∧ ∃ x, r.toDouble = .ok x ∧ (r.IsExact → Scalar.isFinite x = true) := by
  cases r with
  | double x => exact .inr ⟨id, x, rfl, nofun⟩
  | machine n => exact .inr ⟨id, n.toFloat, rfl, nofun⟩
  | fraction q =>
    have hfinite := Number.isFinite_nearest_rat (q < 0) q
    rw [toDouble_fraction]
    split_ifs with h
    · exact .inr ⟨not_le.mpr (hfinite.mp h), _, rfl, fun _ => h⟩
    · exact .inl ⟨not_lt.mp (mt hfinite.mpr h), _, rfl⟩
  | integer n =>
    have hfinite := Number.isFinite_nearestInt n
    rw [toDouble_integer]
    split_ifs with h
    · exact .inr ⟨not_le.mpr (hfinite.mp h), _, rfl, fun _ => h⟩
    · exact .inl ⟨not_lt.mp (mt hfinite.mpr h), _, rfl⟩

end LinModel.RealNumber
