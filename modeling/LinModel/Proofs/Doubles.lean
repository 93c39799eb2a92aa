import Mathlib
import LinModel.Scalar

/-!
# The arithmetic of doubles

A double is a word of 64 bits, and arithmetic reads the words as signs, mantissas and exponents and
packs the result again. Reading and packing lose nothing (`Doubles.pack_unpack`), since every NaN
is the same word. What holds of operations on doubles follows from what they do with the parts.

A zero of either sign added to a double leaves it bit for bit as it is, unless both are zeros, and
zeros stay zeros under a sign, a factor and a divisor: doubles are `Scalar.LawfulZeros`. A mantissa
that was read from a word has the exponent that rounding gives it, so it is rounded to itself after
it was multiplied by one (`Doubles.roundWithAccuracy_padded`); a sign is one bit of the word; and an
infinity or a NaN does not become finite: doubles are `Scalar.LawfulOperations`. Two that are no NaN
compare one way and with the opposite result the other way (`Doubles.compare_swap`), and what is
finite is between the infinities: doubles are `Scalar.LawfulBounds`.

Key theorems: `Doubles.pack_unpack`, `Doubles.isZero_iff`, `Doubles.zero_add`, `Doubles.one_mul`,
`Doubles.neg_one_mul`, `Doubles.add_comm`, `Doubles.mul_comm`, `Doubles.add_neg`,
`Doubles.compare_swap`, `Doubles.isFinite_of_add`, `Doubles.isFinite_of_div`.
-/
namespace LinModel.Doubles

open Float.Model

/-! ### Zeros -/

/-- Nothing is lost by reading a double and packing it again. -/
theorem pack_unpack (f : Float.Model) : Float.Model.pack f.unpack = f := by
  obtain ⟨bits, h⟩ := f
  have hword := UnpackedFloat.pack_unpack_of_valid h
  simp only [Float.Model.pack, Float.Model.unpack, hword]

/-- A double is zero if it is read as a zero of some sign. -/
theorem isZero_iff {z : Float} : Scalar.isZero z = true ↔ ∃ s, z.toModel.unpack = .zero s := by
  have hzero : (0.0 : Float).toModel.unpack = .zero .positive := rfl
  change (z.toModel.unpack.beq (0.0 : Float).toModel.unpack) = true ↔ _
  rw [hzero, UnpackedFloat.beq_iff_ne_notANumber_and_eq]
  constructor
  · rintro ⟨-, -, h | ⟨h, -⟩ | ⟨h, -⟩⟩
    · exact ⟨_, h⟩
    · exact ⟨_, h⟩
    · exact ⟨_, h⟩
  · rintro ⟨s, h⟩
    cases s <;> simp [h]

/-- A packed zero is a zero. -/
theorem isZero_pack (s : UnpackedFloat.Sign) :
    Scalar.isZero (Float.ofModel (.pack (.zero s))) = true := by
  cases s <;> decide +kernel

/-- What is finite is a zero or a number with a mantissa. -/
theorem isFinite_iff {a : Float} : Scalar.isFinite a = true ↔
    (∃ s, a.toModel.unpack = .zero s) ∨ ∃ s m e hm, a.toModel.unpack = .finite s m e hm := by
  change a.toModel.unpack.isFinite = true ↔ _
  cases a.toModel.unpack with
  | finite s m e hm => simp [UnpackedFloat.isFinite, hm]
  | zero s => simp [UnpackedFloat.isFinite]
  | infinity s => simp [UnpackedFloat.isFinite]
  | notANumber => simp [UnpackedFloat.isFinite]

/-- **A zero adds nothing**, but for the sign of another zero. -/
theorem zero_add {z : Float} (a : Float) (h : Scalar.isZero z = true) :
    z + a = a ∨ Scalar.isZero a = true ∧ Scalar.isZero (z + a) = true := by
  obtain ⟨s, hs⟩ := isZero_iff.mp h
  have hadd :
      z + a = .ofModel (.pack (UnpackedFloat.add .binary64 (.zero s) a.toModel.unpack)) := by
    rw [← hs]
    rfl
  have hkept (hread : UnpackedFloat.add .binary64 (.zero s) a.toModel.unpack = a.toModel.unpack) :
      z + a = a := by
    rw [hadd, hread, pack_unpack]
  cases ha : a.toModel.unpack with
  | zero t =>
    refine .inr ⟨isZero_iff.mpr ⟨t, ha⟩, ?_⟩
    rw [hadd, ha]
    cases s <;> cases t <;> exact isZero_pack _
  | infinity t => exact .inl (hkept (by rw [ha]; rfl))
  | notANumber => exact .inl (hkept (by rw [ha]; rfl))
  | finite t m e hm => exact .inl (hkept (by rw [ha]; rfl))

instance : Scalar.LawfulZeros Float where
  isFinite_zero := by decide +kernel
  isFinite_one := by decide +kernel
  isFinite_neg_one := by decide +kernel
  isZero_zero := by decide +kernel
  isFinite_of_isZero h := isFinite_iff.mpr (.inl (isZero_iff.mp h))
  isZero_neg {z} h := by
    obtain ⟨s, hs⟩ := isZero_iff.mp h
    have hneg : -z = .ofModel (.pack (.neg (.zero s))) := by
      rw [← hs]
      rfl
    rw [hneg]
    exact isZero_pack _
  zero_add := zero_add
  isZero_mul {z a} h ha := by
    obtain ⟨s, hs⟩ := isZero_iff.mp h
    have hmul : z * a = .ofModel (.pack (.mul .binary64 (.zero s) a.toModel.unpack)) := by
      rw [← hs]
      rfl
    rw [hmul]
    obtain ⟨t, ht⟩ | ⟨t, m, e, hm, ht⟩ := isFinite_iff.mp ha
    all_goals
      rw [ht]
      exact isZero_pack _
  mul_isZero {a z} ha h := by
    obtain ⟨s, hs⟩ := isZero_iff.mp h
    have hmul : a * z = .ofModel (.pack (.mul .binary64 a.toModel.unpack (.zero s))) := by
      rw [← hs]
      rfl
    rw [hmul]
    obtain ⟨t, ht⟩ | ⟨t, m, e, hm, ht⟩ := isFinite_iff.mp ha
    all_goals
      rw [ht]
      exact isZero_pack _
  isZero_div {z a} h ha hne := by
    obtain ⟨s, hs⟩ := isZero_iff.mp h
    have hdiv : z / a = .ofModel (.pack (.div .binary64 (.zero s) a.toModel.unpack)) := by
      rw [← hs]
      rfl
    obtain ⟨t, ht⟩ | ⟨t, m, e, hm, ht⟩ := isFinite_iff.mp ha
    · rw [isZero_iff.mpr ⟨t, ht⟩] at hne
      cases hne
    · rw [hdiv, ht]
      exact isZero_pack _

/-! ### Units -/

/-- What is read from a word has the exponent that rounding gives its mantissa. -/
theorem targetExponent_of_unpack {f : Float.Model} {s : UnpackedFloat.Sign} {m : ℕ} {e : ℤ}
    {hm : 0 < m} (h : f.unpack = .finite s m e hm) :
    Format.binary64.targetExponent (totalExponent m e) = e := by
  have htarget : Format.binary64.targetExponent (totalExponent m e)
      = max (m.log2 + 1 + e - 53) (-1074) := rfl
  rw [htarget]
  unfold Float.Model.unpack UnpackedFloat.unpack at h
  extract_lets mantissa exponent biased sign sgn at h
  have hbiased : biased = exponent.toNat - 1075 := rfl
  split_ifs at h with hinfinite hmantissa hsmall hzero
  · -- without a leading one: the least exponent, and fewer digits
    injection h with hs hmant hexp
    have hlog : m.log2 < 52 := (Nat.log2_lt hm.ne').mpr (hmant ▸ mantissa.isLt)
    rw [hsmall] at hbiased
    have hzero : (BitVec.ofNat Format.binary64.exponentBits 0).toNat = 0 := rfl
    rw [hzero] at hbiased
    omega
  · -- with a leading one: 53 digits
    injection h with hs hmant hexp
    have hvalue : (1#1 ++ mantissa).toNat = 2 ^ 52 + mantissa.toNat := by
      rw [BitVec.toNat_append, ← Nat.shiftLeft_add_eq_or_of_lt mantissa.isLt]
      rfl
    have hlt : mantissa.toNat < 2 ^ 52 := mantissa.isLt
    have hlog : m.log2 = 52 := by
      rw [Nat.log2_eq_iff hm.ne']
      omega
    have hpos : exponent.toNat ≠ 0 := fun h0 => hsmall (BitVec.eq_of_toNat_eq h0)
    omega

/-- Digits that were only zeros are shifted out without a trace. -/
theorem shiftRight_exact (m : ℕ) : ∀ k : ℕ,
    UnpackedFloat.ExtendedMantissa.ofMantissaAndAccuracy (m * 2 ^ k) .exact >>> k
      = UnpackedFloat.ExtendedMantissa.ofMantissaAndAccuracy m .exact := by
  intro k
  change k.repeat UnpackedFloat.ExtendedMantissa.shiftRightOne _ = _
  induction k generalizing m with
  | zero => simp [Nat.repeat]
  | succ k ih =>
    have hstep := ih (m * 2)
    rw [Nat.repeat, Nat.pow_succ', ← Nat.mul_assoc, hstep]
    simp [UnpackedFloat.ExtendedMantissa.ofMantissaAndAccuracy,
      UnpackedFloat.ExtendedMantissa.shiftRightOne]

/-- **A mantissa that was only written with more digits is rounded back to itself.** -/
theorem roundWithAccuracy_padded {m : ℕ} {e : ℤ} (s : UnpackedFloat.Sign) (hm : 0 < m)
    (he : Format.binary64.targetExponent (totalExponent m e) = e) (k : ℕ) :
    UnpackedFloat.roundWithAccuracy .binary64 s (m * 2 ^ k) (e - k) .exact
      = .finite s m e hm := by
  have htotal : totalExponent (m * 2 ^ k) (e - k) = totalExponent m e := by
    have hlog : (m * 2 ^ k).log2 = m.log2 + k := by
      rw [Nat.log2_eq_iff (by positivity)]
      have hself := (Nat.log2_eq_iff hm.ne').mp (rfl : m.log2 = m.log2)
      rw [pow_add, Nat.add_right_comm, pow_add]
      exact ⟨Nat.mul_le_mul_right _ hself.1, Nat.mul_lt_mul_of_pos_right hself.2 (by positivity)⟩
    unfold totalExponent
    rw [hlog]
    push_cast
    ring
  have hfirst : UnpackedFloat.shiftToTargetExponent .binary64 (m * 2 ^ k) (e - k) .exact
      = (.ofMantissaAndAccuracy m .exact, e) := by
    unfold UnpackedFloat.shiftToTargetExponent UnpackedFloat.shiftToExponent
    have hshift : (e - (e - k)).toNat = k := by omega
    simp only [htotal, he, hshift, shiftRight_exact, sub_add_cancel]
  have hsecond : UnpackedFloat.shiftToTargetExponent .binary64 m e .exact
      = (.ofMantissaAndAccuracy m .exact, e) := by
    unfold UnpackedFloat.shiftToTargetExponent UnpackedFloat.shiftToExponent
    simp only [he, sub_self, Int.toNat_zero]
    have h0 := shiftRight_exact m 0
    rw [pow_zero, mul_one] at h0
    simp [h0]
  unfold UnpackedFloat.roundWithAccuracy
  have hr : (UnpackedFloat.ExtendedMantissa.ofMantissaAndAccuracy m .exact).roundedMantissa = m :=
    rfl
  simp only [hfirst, hr, hsecond]
  exact dif_neg hm.ne'

theorem add_eq (a b : Float) :
    a + b = .ofModel (.pack (.add .binary64 a.toModel.unpack b.toModel.unpack)) := rfl

theorem sub_eq (a b : Float) :
    a - b = .ofModel (.pack (.sub .binary64 a.toModel.unpack b.toModel.unpack)) := rfl

theorem mul_eq (a b : Float) :
    a * b = .ofModel (.pack (.mul .binary64 a.toModel.unpack b.toModel.unpack)) := rfl

theorem div_eq (a b : Float) :
    a / b = .ofModel (.pack (.div .binary64 a.toModel.unpack b.toModel.unpack)) := rfl

theorem neg_eq (a : Float) : -a = .ofModel (.pack a.toModel.unpack.neg) := rfl

theorem unpack_one : (1.0 : Float).toModel.unpack
    = .finite .positive (2 ^ 52) (-52) (by decide) := rfl

theorem unpack_neg_one : (-1.0 : Float).toModel.unpack
    = .finite .negative (2 ^ 52) (-52) (by decide) := rfl

/-- The product of a number with one of either sign has its digits. -/
theorem mul_unit {a : Float} {s t : UnpackedFloat.Sign} {m : ℕ} {e : ℤ} {hm : 0 < m}
    (h : a.toModel.unpack = .finite t m e hm) :
    UnpackedFloat.mul .binary64 (.finite s (2 ^ 52) (-52) (by decide)) a.toModel.unpack
      = .finite (s * t) m e hm := by
  have hround := roundWithAccuracy_padded (s * t) hm (targetExponent_of_unpack h) 52
  have he : (-52 : ℤ) + e = e - (52 : ℕ) := by omega
  rw [h, UnpackedFloat.mul, Nat.mul_comm, he, hround]

theorem one_mul (a : Float) : 1.0 * a = a := by
  have hread : UnpackedFloat.mul .binary64 (1.0 : Float).toModel.unpack a.toModel.unpack
      = a.toModel.unpack := by
    rw [unpack_one]
    cases ha : a.toModel.unpack with
    | notANumber => rfl
    | infinity s => cases s <;> rfl
    | zero s => cases s <;> rfl
    | finite s m e hm =>
      rw [← ha, mul_unit ha, ha]
      cases s <;> rfl
  rw [mul_eq, hread, pack_unpack]

theorem neg_one_mul (a : Float) : -1.0 * a = -a := by
  have hread : UnpackedFloat.mul .binary64 (-1.0 : Float).toModel.unpack a.toModel.unpack
      = a.toModel.unpack.neg := by
    rw [unpack_neg_one]
    cases ha : a.toModel.unpack with
    | notANumber => rfl
    | infinity s => cases s <;> rfl
    | zero s => cases s <;> rfl
    | finite s m e hm =>
      rw [← ha, mul_unit ha, ha]
      cases s <;> rfl
  rw [mul_eq, hread, neg_eq]

/-! ### Orders and signs -/

theorem add_comm (a b : Float) : a + b = b + a := by
  have hread : ∀ u v, UnpackedFloat.add .binary64 u v = UnpackedFloat.add .binary64 v u := by
    intro u v
    cases u with
    | notANumber => cases v <;> rfl
    | infinity s =>
      cases v with
      | infinity t => cases s <;> cases t <;> rfl
      | notANumber | zero | finite => rfl
    | zero s =>
      cases v with
      | zero t => cases s <;> cases t <;> rfl
      | notANumber | infinity | finite => rfl
    | finite s m e hm =>
      cases v with
      | notANumber | infinity | zero => rfl
      | finite t n f hn =>
        simp only [UnpackedFloat.add]
        rw [min_comm e f, Int.add_comm]
  rw [add_eq, hread, add_eq]

theorem mul_comm (a b : Float) : a * b = b * a := by
  have hsign : ∀ s t : UnpackedFloat.Sign, s * t = t * s := by
    intro s t
    cases s <;> cases t <;> rfl
  have hread : ∀ u v, UnpackedFloat.mul .binary64 u v = UnpackedFloat.mul .binary64 v u := by
    intro u v
    cases u <;> cases v <;> simp only [UnpackedFloat.mul, hsign, Nat.mul_comm, Int.add_comm]
  rw [mul_eq, hread, mul_eq]

/-- Changing a sign changes one bit of a word; a NaN has no sign. -/
theorem pack_neg (u : UnpackedFloat) : u.neg = u ∨ ∃ s exponent mantissa,
    u.pack .binary64 = UnpackedFloat.packComponents .binary64 s exponent mantissa ∧
      u.neg.pack .binary64 = UnpackedFloat.packComponents .binary64 (-s) exponent mantissa := by
  cases u with
  | notANumber => exact .inl rfl
  | infinity s => exact .inr ⟨s, _, _, rfl, rfl⟩
  | zero s => exact .inr ⟨s, _, _, rfl, rfl⟩
  | finite s m e hm =>
    refine .inr ?_
    simp only [UnpackedFloat.neg, UnpackedFloat.pack]
    -- too large, without a leading one, or with one
    split_ifs
    · exact ⟨s, _, _, rfl, rfl⟩
    · exact ⟨s, _, _, rfl, rfl⟩
    · exact ⟨s, _, _, rfl, rfl⟩

/-- A word with its sign bit changed is read with its sign changed. -/
theorem unpack_neg_components (s : UnpackedFloat.Sign)
    (exponent : BitVec Format.binary64.exponentBits)
    (mantissa : BitVec Format.binary64.mantissaBitsWithoutImplicit) :
    UnpackedFloat.unpack .binary64 (UnpackedFloat.packComponents .binary64 (-s) exponent mantissa)
      = (UnpackedFloat.unpack .binary64
          (UnpackedFloat.packComponents .binary64 s exponent mantissa)).neg := by
  unfold UnpackedFloat.unpack
  simp only [UnpackedFloat.unpackMantissa_packComponents,
    UnpackedFloat.unpackExponent_packComponents, UnpackedFloat.unpackSign_packComponents,
    UnpackedFloat.Sign.ofBitVec_toBitVec]
  split_ifs <;> rfl

/-- A double with its sign changed is read with its sign changed. -/
theorem unpack_neg (a : Float) : (-a).toModel.unpack = a.toModel.unpack.neg := by
  have hword : a.toModel.unpack.pack .binary64 = a.toModel.toBits.toBitVec :=
    UnpackedFloat.pack_unpack_of_valid a.toModel.valid
  have hneg : (-a).toModel.unpack = .unpack .binary64 (a.toModel.unpack.neg.pack .binary64) := rfl
  rw [hneg]
  obtain hsame | ⟨s, exponent, mantissa, hpack, hflipped⟩ := pack_neg a.toModel.unpack
  · rw [hsame, hword]
    rfl
  · rw [hflipped, unpack_neg_components, ← hpack, hword]
    rfl

theorem add_neg (a b : Float) : a + -b = a - b := by
  have hsign : ∀ (s : UnpackedFloat.Sign) (n : ℤ), (-s).apply n = -s.apply n := by
    intro s n
    cases s with
    | positive => rfl
    | negative => exact (neg_neg n).symm
  have hread : ∀ u v, UnpackedFloat.add .binary64 u v.neg = UnpackedFloat.sub .binary64 u v := by
    intro u v
    cases u <;> cases v <;>
      simp only [UnpackedFloat.neg, UnpackedFloat.add, UnpackedFloat.sub, hsign,
        Int.sub_eq_add_neg]
  rw [add_eq, unpack_neg, hread, sub_eq]

/-! ### Comparisons -/

/-- What is no NaN compares with every other, and the other way round with the opposite result. -/
theorem compare_swap {u v : UnpackedFloat} (hu : u ≠ .notANumber) (hv : v ≠ .notANumber) :
    ∃ o : Ordering, u.compare v = some o ∧ v.compare u = some o.swap := by
  have hsigns : ∀ s t : UnpackedFloat.Sign, compare t s = (compare s t).swap := by
    intro s t
    cases s <;> cases t <;> rfl
  have hdigits : ∀ (m n : ℕ) (e f : ℤ), (compare f e).then (compare n m)
      = ((compare e f).then (compare m n)).swap := by
    intro m n e f
    rw [Ordering.swap_then, Std.OrientedOrd.eq_swap (a := f), Std.OrientedOrd.eq_swap (a := n)]
  cases u with
  | notANumber => exact absurd rfl hu
  | infinity s =>
    cases v with
    | notANumber => exact absurd rfl hv
    | infinity t => exact ⟨_, rfl, congrArg some (hsigns s t)⟩
    | zero t => cases s <;> exact ⟨_, rfl, rfl⟩
    | finite t n f hn => cases s <;> exact ⟨_, rfl, rfl⟩
  | zero s =>
    cases v with
    | notANumber => exact absurd rfl hv
    | infinity t => cases t <;> exact ⟨_, rfl, rfl⟩
    | zero t => exact ⟨_, rfl, rfl⟩
    | finite t n f hn => cases t <;> exact ⟨_, rfl, rfl⟩
  | finite s m e hm =>
    cases v with
    | notANumber => exact absurd rfl hv
    | infinity t => cases t <;> exact ⟨_, rfl, rfl⟩
    | zero t => cases s <;> exact ⟨_, rfl, rfl⟩
    | finite t n f hn =>
      cases s with
      | positive =>
        cases t with
        | positive => exact ⟨_, rfl, congrArg some (hdigits m n e f)⟩
        | negative => exact ⟨_, rfl, rfl⟩
      | negative =>
        cases t with
        | positive => exact ⟨_, rfl, rfl⟩
        | negative => exact ⟨_, rfl, congrArg (some <| Ordering.swap ·) (hdigits m n e f)⟩

theorem compare_self {u : UnpackedFloat} (h : u ≠ .notANumber) : u.compare u = some .eq := by
  obtain ⟨o, ho, hswap⟩ := compare_swap h h
  rw [ho] at hswap ⊢
  cases o with
  | eq => rfl
  | lt | gt => cases hswap

theorem ne_notANumber_of_isFinite {a : Float} (h : Scalar.isFinite a = true) :
    a.toModel.unpack ≠ .notANumber := by
  intro hnan
  change a.toModel.unpack.isFinite = true at h
  rw [hnan] at h
  cases h

theorem isNaN_iff {a : Float} : Scalar.isNaN a = true ↔ a.toModel.unpack = .notANumber := by
  change a.toModel.unpack.isNaN = true ↔ _
  cases a.toModel.unpack <;> simp [UnpackedFloat.isNaN]

theorem le_iff {a b : Float} : Scalar.le a b = true ↔
    ∃ o, a.toModel.unpack.compare b.toModel.unpack = some o ∧ o.isLE = true := by
  have hread : Scalar.le a b
      = decide (decide (a.toModel.unpack.le b.toModel.unpack = true) = true) := rfl
  rw [hread, decide_eq_true_iff, decide_eq_true_iff, UnpackedFloat.le, Option.any_eq_true]

theorem lt_iff {a b : Float} : Scalar.lt a b = true ↔
    a.toModel.unpack.compare b.toModel.unpack = some .lt := by
  have hread : Scalar.lt a b
      = decide (decide (a.toModel.unpack.lt b.toModel.unpack = true) = true) := rfl
  rw [hread, decide_eq_true_iff, decide_eq_true_iff, UnpackedFloat.lt, beq_iff_eq]

theorem unpack_infinity : (Scalar.infinity : Float).toModel.unpack = .infinity .positive := rfl

theorem unpack_neg_infinity : (-Scalar.infinity : Float).toModel.unpack = .infinity .negative := by
  rw [unpack_neg, unpack_infinity]
  rfl

/-- Whatever is neither is between the infinities. -/
theorem compare_infinities {u : UnpackedFloat} (h : u.isFinite = true) :
    u.compare (.infinity .positive) = some .lt ∧
      (UnpackedFloat.infinity .negative).compare u = some .lt := by
  cases u with
  | notANumber | infinity => cases h
  | zero s => exact ⟨rfl, rfl⟩
  | finite s m e hm => cases s <;> exact ⟨rfl, rfl⟩

instance : Scalar.LawfulBounds Float where
  isNaN_of_isFinite {a} h := by
    rw [Bool.eq_false_iff, Ne, isNaN_iff]
    exact ne_notANumber_of_isFinite h
  isFinite_neg {a} h := by
    have hneg : ∀ u : UnpackedFloat, u.neg.isFinite = u.isFinite := fun u => by cases u <;> rfl
    change (-a).toModel.unpack.isFinite = true
    rw [unpack_neg, hneg]
    exact h
  isFinite_infinity := by decide +kernel
  isFinite_neg_infinity := by decide +kernel
  isFinite_eq_of_beq {a b} h := by
    change a.toModel.unpack.isFinite = b.toModel.unpack.isFinite
    obtain ⟨-, -, hsame | ⟨ha, hb⟩ | ⟨ha, hb⟩⟩ :=
      (UnpackedFloat.beq_iff_ne_notANumber_and_eq _ _).mp h
    · rw [hsame]
    · rw [ha, hb]
      rfl
    · rw [ha, hb]
      rfl
  beq_self {a} h :=
    have hnan := ne_notANumber_of_isFinite h
    (UnpackedFloat.beq_iff_ne_notANumber_and_eq _ _).mpr ⟨hnan, hnan, .inl rfl⟩
  le_self {a} h := le_iff.mpr ⟨_, compare_self (ne_notANumber_of_isFinite h), rfl⟩
  le_infinity {a} h := le_iff.mpr ⟨.lt, by rw [unpack_infinity, (compare_infinities h).1], rfl⟩
  neg_infinity_le {a} h :=
    le_iff.mpr ⟨.lt, by rw [unpack_neg_infinity, (compare_infinities h).2], rfl⟩
  zero_le_one := by decide +kernel
  le_of_not_lt {a b} ha hb hlt := by
    rw [Bool.eq_false_iff, Ne, isNaN_iff] at ha hb
    rw [Bool.eq_false_iff, Ne, lt_iff] at hlt
    obtain ⟨o, hab, hba⟩ := compare_swap ha hb
    refine le_iff.mpr ⟨o, hab, ?_⟩
    cases o with
    | lt | eq => rfl
    | gt => exact absurd hba hlt

/-! ### Infinities and NaN -/

/-- An infinity and a NaN are none of the finite doubles. -/
theorem isFinite_pack_of_not {u : UnpackedFloat} (h : u.isFinite = false) :
    Scalar.isFinite (Float.ofModel (.pack u)) = false := by
  cases u with
  | notANumber => decide +kernel
  | infinity s => cases s <;> decide +kernel
  | zero s => cases h
  | finite s m e hm => cases h

/-- What is added to an infinity or a NaN does not make it finite. -/
theorem isFinite_of_add {a b : Float} (h : Scalar.isFinite (a + b) = true) :
    Scalar.isFinite a = true := by
  by_contra ha
  have hlost : ∀ u v, u.isFinite = false → (UnpackedFloat.add .binary64 u v).isFinite = false := by
    intro u v hu
    cases u with
    | notANumber => rfl
    | infinity s =>
      cases v with
      | infinity t => cases s <;> cases t <;> rfl
      | notANumber | zero | finite => rfl
    | zero s => cases hu
    | finite s m e hm => cases hu
  have hread : a.toModel.unpack.isFinite = false := Bool.eq_false_iff.mpr ha
  rw [add_eq, isFinite_pack_of_not (hlost _ _ hread)] at h
  cases h

/-- What an infinity or a NaN is divided by does not make it finite. -/
theorem isFinite_of_div {a b : Float} (h : Scalar.isFinite (a / b) = true) :
    Scalar.isFinite a = true := by
  by_contra ha
  have hlost : ∀ u v, u.isFinite = false → (UnpackedFloat.div .binary64 u v).isFinite = false := by
    intro u v hu
    cases u with
    | notANumber => rfl
    | infinity s => cases v <;> rfl
    | zero s => cases hu
    | finite s m e hm => cases hu
  have hread : a.toModel.unpack.isFinite = false := Bool.eq_false_iff.mpr ha
  rw [div_eq, isFinite_pack_of_not (hlost _ _ hread)] at h
  cases h

instance : Scalar.LawfulOperations Float where
  add_zero {z} a h := by
    rw [add_comm]
    exact zero_add a h
  one_mul := one_mul
  isFinite_of_add := isFinite_of_add
  add_comm := add_comm
  mul_comm := mul_comm
  neg_one_mul := neg_one_mul
  add_neg := add_neg
  isFinite_of_div := isFinite_of_div

end LinModel.Doubles
