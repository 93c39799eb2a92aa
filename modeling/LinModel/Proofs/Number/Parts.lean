import LinModel.Number.Binary
import LinModel.Proofs.Doubles

/-!
# The parts of a double

A finite double has a sign, a mantissa and an exponent. Taken off its bits they are what the model
of doubles reads from the word (`Number.ofFloat?_eq`): a mantissa of at most 53 digits, which has
all of them unless the exponent is the least one (`Number.Binary.IsDouble`). A double is told by its
parts (`Number.eq_of_parts`), and what the library asks of a double is told by them: whether it is
zero, whether it is negative, and what its magnitude is.

Key definitions: `Number.Binary.IsDouble`, `Number.Binary.magnitude`.
Key theorems: `Number.ofFloat?_eq`, `Number.exists_parts`, `Number.eq_of_parts`,
`Number.ofFloat?_abs`, `Number.zero_le_eq`.
-/
namespace LinModel.Number

open Float.Model Float.Model.UnpackedFloat

/-! ### Words -/

/-- Whether a sign is the negative one. -/
def isNegative : UnpackedFloat.Sign → Bool
  | .positive => false
  | .negative => true

theorem toNat_unpackMantissa (w : BitVec Format.binary64.numBits) :
    (unpackMantissa w).toNat = w.toNat % 2 ^ 52 := by
  unfold unpackMantissa
  simp [BitVec.extractLsb_toNat]

theorem toNat_unpackExponent (w : BitVec Format.binary64.numBits) :
    (unpackExponent w).toNat = w.toNat / 2 ^ 52 % 2 ^ 11 := by
  unfold unpackExponent
  simp [BitVec.extractLsb_toNat, Nat.shiftRight_eq_div_pow]

theorem isNegative_unpackSign (w : BitVec Format.binary64.numBits) :
    isNegative (.ofBitVec (unpackSign w)) = (w.toNat / 2 ^ 63 == 1) := by
  have hlt : w.toNat < 2 ^ 64 := w.isLt
  have hsign : (unpackSign w).toNat = w.toNat / 2 ^ 63 := by
    unfold unpackSign
    simp [BitVec.extractLsb_toNat, Nat.shiftRight_eq_div_pow]
    omega
  rw [← hsign, Sign.ofBitVec]
  generalize unpackSign w = b
  revert b
  decide

/-- The parts of what is read from a word. -/
def ofUnpacked? : UnpackedFloat → Option Binary
  | .infinity _ | .notANumber => none
  | .zero s => some ⟨isNegative s, 0, -1074⟩
  | .finite s m e _ => some ⟨isNegative s, m, e⟩

/-- **The parts of a double are those that are read from its word.** -/
theorem ofFloat?_eq (x : Float) : Binary.ofFloat? x = ofUnpacked? x.toModel.unpack := by
  let w : BitVec Format.binary64.numBits := x.toModel.toBits.toBitVec
  have hbits : x.toBits.toNat = w.toNat := rfl
  have hunpack : x.toModel.unpack = .unpack .binary64 w := rfl
  have hall : unpackExponent w = -1#_ ↔ (unpackExponent w).toNat = 2047 := by
    rw [← BitVec.toNat_inj]
    rfl
  have hnone : unpackExponent w = 0#_ ↔ (unpackExponent w).toNat = 0 := by
    rw [← BitVec.toNat_inj]
    rfl
  have hleading : (1#1 ++ unpackMantissa w).toNat = (unpackMantissa w).toNat + 2 ^ 52 := by
    rw [BitVec.toNat_append, ← Nat.shiftLeft_add_eq_or_of_lt (unpackMantissa w).isLt,
      Nat.add_comm]
    rfl
  have hbias : ((unpackExponent w).toNat : ℤ) - (Format.binary64.exponentBias + (52 : ℕ))
      = (unpackExponent w).toNat - 1075 := rfl
  rw [hunpack]
  unfold Binary.ofFloat? UnpackedFloat.unpack
  simp only [hbits, Nat.pow_eq, ← toNat_unpackMantissa, ← toNat_unpackExponent,
    ← isNegative_unpackSign]
  by_cases hinfinite : (unpackExponent w).toNat = 2047
  · rw [if_pos hinfinite, if_pos (hall.mpr hinfinite)]
    split_ifs <;> rfl
  · rw [if_neg hinfinite, if_neg (mt hall.mp hinfinite)]
    by_cases hsmall : (unpackExponent w).toNat = 0
    · rw [if_pos hsmall, if_pos (hnone.mpr hsmall)]
      by_cases hzero : unpackMantissa w = 0#_
      · rw [dif_pos hzero, hzero]
        rfl
      · rw [dif_neg hzero, hbias, hsmall]
        rfl
    · rw [if_neg hsmall, if_neg (mt hnone.mp hsmall), ofUnpacked?, hleading, hbias]
      rfl

/-! ### Parts -/

/-- The parts of a double: at most 53 digits, and a leading one above the least exponent. -/
structure Binary.IsDouble (b : Binary) : Prop where
  mantissa_lt : b.mantissa < 2 ^ 53
  lowest_le : -1074 ≤ b.exponent
  leading : b.exponent = -1074 ∨ 2 ^ 52 ≤ b.mantissa

/-- The value without its sign. -/
def Binary.magnitude (b : Binary) : ℚ := b.mantissa * 2 ^ b.exponent

variable {x y : Float} {b c : Binary}

/-- **A finite double has parts.** -/
theorem exists_parts (h : Scalar.isFinite x = true) :
    ∃ b, Binary.ofFloat? x = some b ∧ b.IsDouble := by
  rcases Doubles.isFinite_iff.mp h with ⟨s, hx⟩ | ⟨s, m, e, hm, hx⟩
  · refine ⟨⟨isNegative s, 0, -1074⟩, ?_, by norm_num, le_rfl, .inl rfl⟩
    rw [ofFloat?_eq, hx]
    rfl
  · have htarget : max ((m.log2 : ℤ) + 1 + e - 53) (-1074) = e :=
      Doubles.targetExponent_of_unpack hx
    have hlog := (Nat.log2_eq_iff hm.ne').mp (rfl : m.log2 = m.log2)
    have hlt : m < 2 ^ 53 := hlog.2.trans_le (Nat.pow_le_pow_right two_pos (by omega))
    refine ⟨⟨isNegative s, m, e⟩, ?_, hlt, by dsimp only; omega, ?_⟩
    · rw [ofFloat?_eq, hx]
      rfl
    · by_cases he : e = -1074
      · exact .inl he
      · have hdigits : m.log2 = 52 := by omega
        exact .inr (hdigits ▸ hlog.1)

theorem unpack_of_parts (h : Binary.ofFloat? x = some b) :
    (∃ s, x.toModel.unpack = .zero s ∧ b = ⟨isNegative s, 0, -1074⟩) ∨
      ∃ s m e hm, x.toModel.unpack = .finite s m e hm ∧ b = ⟨isNegative s, m, e⟩ := by
  rw [ofFloat?_eq] at h
  cases hx : x.toModel.unpack with
  | infinity s | notANumber =>
    rw [hx] at h
    cases h
  | zero s =>
    rw [hx] at h
    exact .inl ⟨s, rfl, (Option.some.inj h).symm⟩
  | finite s m e hm =>
    rw [hx] at h
    exact .inr ⟨s, m, e, hm, rfl, (Option.some.inj h).symm⟩

theorem isNegative_inj : ∀ {s t : UnpackedFloat.Sign}, isNegative s = isNegative t → s = t
  | .positive, .positive, _ | .negative, .negative, _ => rfl

theorem eq_of_unpack (h : x.toModel.unpack = y.toModel.unpack) : x = y := by
  have hmodel : x.toModel = y.toModel := by
    rw [← Doubles.pack_unpack x.toModel, h, Doubles.pack_unpack]
  exact congrArg Float.ofModel hmodel

/-- **A double is told by its parts.** -/
theorem eq_of_parts (hx : Binary.ofFloat? x = some b) (hy : Binary.ofFloat? y = some b) :
    x = y := by
  refine eq_of_unpack ?_
  obtain ⟨s, hs, hb⟩ | ⟨s, m, e, hm, hs, hb⟩ := unpack_of_parts hx <;>
    obtain ⟨t, ht, hc⟩ | ⟨t, n, f, hn, ht, hc⟩ := unpack_of_parts hy
  all_goals
    obtain ⟨hsign, hmantissa, hexponent⟩ := Binary.mk.inj (hb.symm.trans hc)
    obtain rfl := isNegative_inj hsign
  · rw [hs, ht]
  · exact absurd hmantissa.symm hn.ne'
  · exact absurd hmantissa hm.ne'
  · subst hmantissa hexponent
    rw [hs, ht]

theorem isZero_eq (h : Binary.ofFloat? x = some b) :
    Scalar.isZero x = decide (b.mantissa = 0) := by
  obtain ⟨s, hs, rfl⟩ | ⟨s, m, e, hm, hs, rfl⟩ := unpack_of_parts h
  · exact Doubles.isZero_iff.mpr ⟨s, hs⟩
  · rw [decide_eq_false hm.ne', Bool.eq_false_iff]
    intro hzero
    obtain ⟨t, ht⟩ := Doubles.isZero_iff.mp hzero
    rw [hs] at ht
    cases ht

theorem zero_le_eq (h : Binary.ofFloat? x = some b) :
    Scalar.le Scalar.zero x = (!b.negative || decide (b.mantissa = 0)) := by
  have hle : Scalar.le Scalar.zero x = (UnpackedFloat.zero .positive).le x.toModel.unpack := by
    change decide (decide ((UnpackedFloat.zero .positive).le x.toModel.unpack = true) = true) = _
    rw [Bool.decide_eq_true, Bool.decide_eq_true]
  rw [hle]
  obtain ⟨s, hs, rfl⟩ | ⟨s, m, e, hm, hs, rfl⟩ := unpack_of_parts h
  · rw [hs]
    cases s <;> rfl
  · rw [hs, decide_eq_false hm.ne', Bool.or_false]
    cases s <;> rfl

/-- The magnitude of a double has its mantissa and exponent. -/
theorem ofFloat?_abs (h : Binary.ofFloat? x = some b) :
    Binary.ofFloat? (Scalar.abs x) = some { b with negative := false } := by
  have habs : (Scalar.abs x).toModel.unpack = x.toModel.unpack.abs := by
    have hsign : x.toModel.unpack.abs = x.toModel.unpack ∨
        x.toModel.unpack.abs = x.toModel.unpack.neg := by
      cases x.toModel.unpack with
      | notANumber => exact .inl rfl
      | infinity s | zero s | finite s =>
        cases s with
        | positive => exact .inl rfl
        | negative => exact .inr rfl
    have hpack : Scalar.abs x = .ofModel (.pack x.toModel.unpack.abs) := rfl
    rcases hsign with hkept | hneg
    · rw [hpack, hkept, Doubles.pack_unpack]
    · rw [hpack, hneg, ← Doubles.neg_eq, Doubles.unpack_neg]
  rw [ofFloat?_eq, habs]
  obtain ⟨s, hs, rfl⟩ | ⟨s, m, e, hm, hs, rfl⟩ := unpack_of_parts h
  · rw [hs]
    rfl
  · rw [hs]
    rfl

theorem eq_one_of_beq (h : Scalar.beq x Scalar.one = true) : x = Scalar.one := by
  have hbeq : x.toModel.unpack.beq (Scalar.one : Float).toModel.unpack = true := h
  rw [UnpackedFloat.beq_iff_ne_notANumber_and_eq] at hbeq
  refine eq_of_unpack ?_
  obtain ⟨-, -, heq | ⟨-, hzero⟩ | ⟨-, hzero⟩⟩ := hbeq
  · exact heq
  · cases hzero
  · cases hzero

end LinModel.Number
