import LinModel.Number.Shortest
import LinModel.Proofs.Number.Parts

/-!
# The shortest digits tell the double

The rationals that round to a positive double lie around it, up to half the distance to the next
double on either side (`Number.Binary.Covers`); no rational rounds to two of them
(`Number.eq_of_covers`). The shortest digits of a double are looked for on grids of more and more
digits, among the two grid points next to it, and a grid point is taken only if it rounds to the
double. A grid whose points are closer to each other than the ends of the interval has such a point
(`Number.exists_gridPoint`), and that of seventeen digits is so fine, since the powers of ten that
`decimalPoint` finds hold the double between them (`Number.decimalPoint_spec`). So there always are
shortest digits, they round to the double (`Number.covers_shortest`), and they round to no other.

Key definitions: `Number.Binary.Covers`, `Number.Digits.value`.
Key theorems: `Number.eq_of_covers`, `Number.decimalPoint_spec`, `Number.exists_gridPoint`,
`Number.covers_shortest`.
-/
namespace LinModel.Number

variable {b c : Binary} {q : ℚ}

/-! ### Powers -/

theorem power_spec {base : ℕ} (hbase : 0 < base) (e : ℤ) {p : ℕ × ℕ}
    (hp : p = if e < 0 then (1, Nat.pow base e.natAbs) else (Nat.pow base e.natAbs, 1)) :
    0 < p.1 ∧ 0 < p.2 ∧ (p.1 : ℚ) / p.2 = (base : ℚ) ^ e := by
  have hpos : 0 < base ^ e.natAbs := Nat.pow_pos hbase
  by_cases he : e < 0
  · rw [if_pos he] at hp
    subst hp
    refine ⟨one_pos, hpos, ?_⟩
    have hneg : e = -(e.natAbs : ℤ) := by omega
    rw [Nat.pow_eq, Nat.cast_one, one_div, Nat.cast_pow, ← zpow_natCast, ← zpow_neg, ← hneg]
  · rw [if_neg he] at hp
    subst hp
    refine ⟨hpos, one_pos, ?_⟩
    have hnonneg : e = (e.natAbs : ℤ) := by omega
    rw [Nat.pow_eq, Nat.cast_one, div_one, Nat.cast_pow, ← zpow_natCast, ← hnonneg]

theorem scale_spec (e : ℤ) : 0 < (Binary.scale e).1 ∧ 0 < (Binary.scale e).2 ∧
    ((Binary.scale e).1 : ℚ) / (Binary.scale e).2 = 2 ^ e :=
  power_spec two_pos e rfl

theorem tens_spec (e : ℤ) : 0 < (tens e).1 ∧ 0 < (tens e).2 ∧
    ((tens e).1 : ℚ) / (tens e).2 = 10 ^ e :=
  power_spec (by norm_num) e rfl

theorem ratio_eq (b : Binary) : (b.ratio.1 : ℚ) / b.ratio.2 = b.magnitude := by
  obtain ⟨-, -, hscale⟩ := scale_spec b.exponent
  rw [Binary.magnitude, ← hscale, Binary.ratio, Nat.cast_mul, mul_div_assoc]

/-! ### Rounding intervals -/

/-- Half the distance to the double below, in quarters of the unit in the last place: that double is
closer where the exponent changes. -/
def Binary.gap (b : Binary) : ℕ := if b.mantissa = 2 ^ 52 ∧ -1074 < b.exponent then 1 else 2

/-- The lower end of the rounding interval. -/
def Binary.low (b : Binary) : ℚ := (4 * b.mantissa - b.gap) * 2 ^ (b.exponent - 2)

/-- The upper end of the rounding interval. -/
def Binary.high (b : Binary) : ℚ := (4 * b.mantissa + 2) * 2 ^ (b.exponent - 2)

/-- A rational that rounds to the double; the ends of the interval do if the mantissa is even. -/
structure Binary.Covers (b : Binary) (q : ℚ) : Prop where
  low_le : b.low ≤ q
  le_high : q ≤ b.high
  inside : b.mantissa % 2 = 1 → b.low < q ∧ q < b.high

theorem gap_pos (b : Binary) : 1 ≤ b.gap ∧ b.gap ≤ 2 := by
  unfold Binary.gap
  split_ifs <;> omega

theorem cross_le_iff {low num d den : ℕ} (hd : 0 < d) (hden : 0 < den) :
    low * den ≤ num * d ↔ (low : ℚ) / d ≤ num / den := by
  rw [div_le_div_iff₀ (by exact_mod_cast hd) (by exact_mod_cast hden)]
  norm_cast

theorem cross_lt_iff {low num d den : ℕ} (hd : 0 < d) (hden : 0 < den) :
    low * den < num * d ↔ (low : ℚ) / d < num / den := by
  rw [div_lt_div_iff₀ (by exact_mod_cast hd) (by exact_mod_cast hden)]
  norm_cast

/-- The interval that the digits are looked for in has the ends of the rounding interval, and they
belong to it if the mantissa is even. -/
theorem interval_spec (hm : 0 < b.mantissa) : 0 < (b.interval .double).den ∧
    ((b.interval .double).low : ℚ) / (b.interval .double).den = b.low ∧
    ((b.interval .double).high : ℚ) / (b.interval .double).den = b.high ∧
    (b.interval .double).closed = (b.mantissa % 2 == 0) := by
  obtain ⟨-, hden, hscale⟩ := scale_spec (b.exponent - 2)
  have hgap : b.gap ≤ 4 * b.mantissa := by
    have := gap_pos b
    omega
  have hlow : (b.interval .double).low
      = (4 * b.mantissa - b.gap) * (Binary.scale (b.exponent - 2)).1 := rfl
  have hhigh : (b.interval .double).high
      = (4 * b.mantissa + 2) * (Binary.scale (b.exponent - 2)).1 := rfl
  have hunits : (b.interval .double).den = (Binary.scale (b.exponent - 2)).2 := rfl
  refine ⟨hden, ?_, ?_, rfl⟩
  · rw [hlow, hunits, Binary.low, ← hscale, Nat.cast_mul, Nat.cast_sub hgap, mul_div_assoc]
    push_cast
    rfl
  · rw [hhigh, hunits, Binary.high, ← hscale, Nat.cast_mul, mul_div_assoc]
    push_cast
    rfl

/-- **The interval that the digits are looked for in holds the rationals that round.** -/
theorem contains_iff (hm : 0 < b.mantissa) {num den : ℕ} (hden : 0 < den) :
    (b.interval .double).contains num den = true ↔ b.Covers (num / den) := by
  obtain ⟨hunits, hlow, hhigh, hclosed⟩ := interval_spec hm
  unfold Interval.contains
  rw [hclosed]
  by_cases heven : b.mantissa % 2 = 0
  · rw [if_pos (beq_iff_eq.mpr heven), Bool.and_eq_true, decide_eq_true_iff, decide_eq_true_iff,
      cross_le_iff hunits hden, cross_le_iff hden hunits, hlow, hhigh]
    exact ⟨fun h => ⟨h.1, h.2, fun hodd => by omega⟩, fun h => ⟨h.low_le, h.le_high⟩⟩
  · rw [if_neg (by simpa using heven), Bool.and_eq_true, decide_eq_true_iff, decide_eq_true_iff,
      cross_lt_iff hunits hden, cross_lt_iff hden hunits, hlow, hhigh]
    exact ⟨fun h => ⟨h.1.le, h.2.le, fun _ => h⟩, fun h => h.inside (by omega)⟩

/-- A double rounds to itself, and so does what lies around it strictly within the interval. -/
theorem Binary.Covers.of_lt (hlow : b.low < q) (hhigh : q < b.high) : b.Covers q :=
  ⟨hlow.le, hhigh.le, fun _ => ⟨hlow, hhigh⟩⟩

theorem magnitude_eq (b : Binary) : b.magnitude = 4 * b.mantissa * 2 ^ (b.exponent - 2) := by
  have hpow : (2 : ℚ) ^ b.exponent = 4 * 2 ^ (b.exponent - 2) := by
    rw [zpow_sub₀ two_ne_zero]
    ring
  rw [Binary.magnitude, hpow]
  ring

theorem Binary.low_lt_magnitude (b : Binary) : b.low < b.magnitude := by
  have hgap : (1 : ℚ) ≤ b.gap := by exact_mod_cast (gap_pos b).1
  have hunit : (0 : ℚ) < 2 ^ (b.exponent - 2) := by positivity
  rw [magnitude_eq, Binary.low]
  exact mul_lt_mul_of_pos_right (by linarith) hunit

theorem Binary.magnitude_lt_high (b : Binary) : b.magnitude < b.high := by
  have hunit : (0 : ℚ) < 2 ^ (b.exponent - 2) := by positivity
  rw [magnitude_eq, Binary.high]
  exact mul_lt_mul_of_pos_right (by linarith) hunit

/-- Where two intervals meet, the lower end of the one is not above the upper end of the other, and
below it unless both ends belong to their intervals. -/
theorem ends_le (hb : b.Covers q) (hc : c.Covers q) {k : ℕ} (he : c.exponent = b.exponent + k) :
    (4 * c.mantissa - c.gap : ℤ) * 2 ^ k ≤ 4 * b.mantissa + 2 ∧
      (b.mantissa % 2 = 1 ∨ c.mantissa % 2 = 1 →
        (4 * c.mantissa - c.gap : ℤ) * 2 ^ k < 4 * b.mantissa + 2) := by
  have hunit : (0 : ℚ) < 2 ^ (b.exponent - 2) := by positivity
  have hlow : c.low = (4 * c.mantissa - c.gap) * 2 ^ k * 2 ^ (b.exponent - 2) := by
    have hsplit : c.exponent - 2 = (k : ℤ) + (b.exponent - 2) := by omega
    rw [Binary.low, hsplit, zpow_add₀ two_ne_zero, zpow_natCast, mul_assoc]
  have hle : c.low ≤ b.high := hc.low_le.trans hb.le_high
  have hlt : b.mantissa % 2 = 1 ∨ c.mantissa % 2 = 1 → c.low < b.high := by
    rintro (hodd | hodd)
    · exact hc.low_le.trans_lt (hb.inside hodd).2
    · exact (hc.inside hodd).1.trans_le hb.le_high
  rw [hlow, Binary.high] at hle hlt
  constructor
  · have hle := le_of_mul_le_mul_right hle hunit
    exact_mod_cast hle
  · intro hodd
    have hlt := lt_of_mul_lt_mul_right (hlt hodd) hunit.le
    exact_mod_cast hlt

/-- **No rational rounds to two doubles.** -/
theorem eq_of_covers (hb : b.IsDouble) (hc : c.IsDouble) (hbq : b.Covers q) (hcq : c.Covers q) :
    b.mantissa = c.mantissa ∧ b.exponent = c.exponent := by
  wlog hle : b.exponent ≤ c.exponent generalizing b c
  · obtain ⟨hm, he⟩ := this hc hb hcq hbq (le_of_not_ge hle)
    exact ⟨hm.symm, he.symm⟩
  obtain ⟨k, hk⟩ := Int.le.dest hle
  obtain ⟨hends, hstrict⟩ := ends_le hbq hcq hk.symm
  have hgapb := gap_pos b
  have hgapc := gap_pos c
  by_cases hzero : k = 0
  · subst hzero
    rw [Nat.cast_zero, add_zero] at hk
    obtain ⟨hends', hstrict'⟩ := ends_le (k := 0) hcq hbq (by omega)
    rw [pow_zero, mul_one] at hends hends' hstrict hstrict'
    refine ⟨?_, hk⟩
    omega
  · -- the mantissa of the larger one has all digits, that of the smaller one not enough
    have htwo : (2 : ℤ) ≤ 2 ^ k := by
      calc (2 : ℤ) = 2 ^ 1 := rfl
        _ ≤ 2 ^ k := pow_le_pow_right₀ (by norm_num) (by omega)
    have hleading : 2 ^ 52 ≤ c.mantissa := by
      have := hb.lowest_le
      rcases hc.leading with h | h
      · omega
      · exact h
    have hlt := hb.mantissa_lt
    have hgap : c.mantissa = 2 ^ 52 → c.gap = 1 := by
      intro h
      have := hb.lowest_le
      rw [Binary.gap, if_pos ⟨h, by omega⟩]
    have hmul : (4 * c.mantissa - c.gap : ℤ) * 2 ≤ (4 * c.mantissa - c.gap : ℤ) * 2 ^ k :=
      mul_le_mul_of_nonneg_left htwo (by omega)
    exfalso
    by_cases hpower : c.mantissa = 2 ^ 52
    · have hone := hgap hpower
      have hodd : b.mantissa % 2 = 1 := by omega
      have := hstrict (.inl hodd)
      omega
    · omega

/-! ### Powers of ten around a number -/

theorem digitCount_spec {n : ℕ} (hn : 0 < n) :
    10 ^ (digitCount n - 1) ≤ n ∧ n < 10 ^ digitCount n ∧ 0 < digitCount n := by
  have hpos : 0 < digitCount n := Nat.length_toDigits_pos
  refine ⟨?_, (Nat.length_toDigits_le_iff (by norm_num) hpos).mp le_rfl, hpos⟩
  by_cases hone : digitCount n = 1
  · rw [hone]
    exact hn
  · by_contra hlt
    have hle : digitCount n ≤ digitCount n - 1 :=
      (Nat.length_toDigits_le_iff (by norm_num) (by omega)).mpr (Nat.not_le.mp hlt)
    omega

/-- How often a ratio can be multiplied by ten before it reaches one tenth. -/
theorem leadingZeros_spec : ∀ {fuel num den : ℕ}, num < den → den ≤ num * 10 ^ fuel →
    num * 10 ^ leadingZeros fuel num den < den ∧ den ≤ num * 10 ^ (leadingZeros fuel num den + 1)
  | 0, num, den, hlt, hle => by
    rw [pow_zero, mul_one] at hle
    omega
  | fuel + 1, num, den, hlt, hle => by
    rw [leadingZeros]
    by_cases h : den ≤ num * 10
    · rw [if_pos h]
      exact ⟨by rwa [pow_zero, mul_one], by rwa [zero_add, pow_one]⟩
    · rw [if_neg h]
      have hrest : den ≤ num * 10 * 10 ^ fuel := by rwa [mul_assoc, ← pow_succ']
      have ih := leadingZeros_spec (Nat.not_le.mp h) hrest
      rwa [mul_assoc, ← pow_succ', mul_assoc, ← pow_succ'] at ih

/-- **The decimal point** is where the next power of ten is above the number. -/
theorem decimalPoint_spec {num den : ℕ} (hden : 0 < den) (hle : den ≤ num * 10 ^ 400) :
    (10 : ℚ) ^ (decimalPoint num den - 1) ≤ num / den ∧
      (num : ℚ) / den < 10 ^ decimalPoint num den := by
  have hdenQ : (0 : ℚ) < den := by exact_mod_cast hden
  unfold decimalPoint
  by_cases h : den ≤ num
  · rw [if_pos h]
    obtain ⟨hlow, hhigh, hpos⟩ := digitCount_spec (Nat.div_pos h hden)
    have hcast : (digitCount (num / den) : ℤ) - 1 = ((digitCount (num / den) - 1 : ℕ) : ℤ) := by
      omega
    have hfloor : num / den * den ≤ num := Nat.div_mul_le_self num den
    have hceil : num < (num / den + 1) * den := by
      rw [Nat.mul_comm]
      exact Nat.lt_mul_div_succ num hden
    rw [hcast, zpow_natCast, zpow_natCast, le_div_iff₀ hdenQ, div_lt_iff₀ hdenQ]
    constructor
    · exact_mod_cast (Nat.mul_le_mul_right den hlow).trans hfloor
    · exact_mod_cast hceil.trans_le (Nat.mul_le_mul_right den hhigh)
  · rw [if_neg h]
    obtain ⟨hlow, hhigh⟩ := leadingZeros_spec (Nat.not_le.mp h) hle
    have hnext : -(leadingZeros 400 num den : ℤ) - 1
        = -((leadingZeros 400 num den + 1 : ℕ) : ℤ) := by
      push_cast
      ring
    rw [hnext, zpow_neg, zpow_neg, zpow_natCast, zpow_natCast, ← one_div, ← one_div,
      div_le_div_iff₀ (by positivity) hdenQ, div_lt_div_iff₀ hdenQ (by positivity), one_mul]
    constructor
    · exact_mod_cast hhigh
    · exact_mod_cast hlow

theorem two_pow_le_ten_pow {m n : ℕ} (h : m ≤ 3 * n) : 2 ^ m ≤ 10 ^ n := by
  calc 2 ^ m ≤ 2 ^ (3 * n) := Nat.pow_le_pow_right two_pos h
    _ = (2 ^ 3) ^ n := Nat.pow_mul ..
    _ ≤ 10 ^ n := Nat.pow_le_pow_left (by norm_num) n

theorem decimalPoint_ratio (hb : b.IsDouble) (hm : 0 < b.mantissa) :
    (10 : ℚ) ^ (decimalPoint b.ratio.1 b.ratio.2 - 1) ≤ b.magnitude ∧
      b.magnitude < 10 ^ decimalPoint b.ratio.1 b.ratio.2 := by
  obtain ⟨hn, hd, -⟩ := scale_spec b.exponent
  have hden : ∀ n, 1074 ≤ 3 * n → b.ratio.2 ≤ 10 ^ n := by
    intro n h
    have hlowest := hb.lowest_le
    change (Binary.scale b.exponent).2 ≤ 10 ^ n
    unfold Binary.scale
    split_ifs with hneg
    · exact two_pow_le_ten_pow (by omega)
    · exact Nat.one_le_pow _ _ (by norm_num)
  have hle : b.ratio.2 ≤ b.ratio.1 * 10 ^ 400 :=
    (hden 400 (by norm_num)).trans (Nat.le_mul_of_pos_left _ (Nat.mul_pos hm hn))
  rw [← ratio_eq]
  exact decimalPoint_spec hd hle

/-! ### Grids -/

/-- The last point of the grid of multiples of `10 ^ e` that is not above a double. -/
def below (b : Binary) (e : ℤ) : ℕ := b.ratio.1 * (tens e).2 / (b.ratio.2 * (tens e).1)

theorem below_spec (b : Binary) (e : ℤ) :
    below b e * 10 ^ e ≤ b.magnitude ∧ b.magnitude < (below b e + 1) * 10 ^ e := by
  obtain ⟨-, hd, -⟩ := scale_spec b.exponent
  obtain ⟨hgn, hgd, hten⟩ := tens_spec e
  have hden : 0 < b.ratio.2 * (tens e).1 := Nat.mul_pos hd hgn
  have hdQ : (0 : ℚ) < b.ratio.2 := by exact_mod_cast hd
  have hgdQ : (0 : ℚ) < (tens e).2 := by exact_mod_cast hgd
  have hfloor : below b e * (b.ratio.2 * (tens e).1) ≤ b.ratio.1 * (tens e).2 :=
    Nat.div_mul_le_self ..
  have hceil : b.ratio.1 * (tens e).2 < (below b e + 1) * (b.ratio.2 * (tens e).1) := by
    rw [Nat.mul_comm (below b e + 1)]
    exact Nat.lt_mul_div_succ _ hden
  rw [← ratio_eq, ← hten, ← mul_div_assoc, ← mul_div_assoc, div_le_div_iff₀ hgdQ hdQ,
    div_lt_div_iff₀ hdQ hgdQ]
  constructor
  · have hle : below b e * (tens e).1 * b.ratio.2 ≤ b.ratio.1 * (tens e).2 := by linarith
    exact_mod_cast hle
  · have hlt : b.ratio.1 * (tens e).2 < (below b e + 1) * (tens e).1 * b.ratio.2 := by linarith
    exact_mod_cast hlt

/-- Whether a grid point is taken. -/
def hits (b : Binary) (e : ℤ) (k : ℕ) : Bool :=
  (b.interval .double).contains (k * (tens e).1) (tens e).2

theorem hits_iff (hm : 0 < b.mantissa) {e : ℤ} {k : ℕ} :
    hits b e k = true ↔ b.Covers (k * 10 ^ e) := by
  obtain ⟨-, hgd, hten⟩ := tens_spec e
  rw [hits, contains_iff hm hgd, ← hten, Nat.cast_mul, mul_div_assoc]

variable {point : ℤ} {count k : ℕ}

/-- A grid has a point for the double if one of the two next to it is taken. -/
theorem gridPoint_cases (b : Binary) (point : ℤ) (count : ℕ) :
    (∃ k, gridPoint .double b point count = some k ∧ hits b (point - count) k = true ∧
        k ≤ below b (point - count) + 1) ∨
      gridPoint .double b point count = none ∧
        hits b (point - count) (below b (point - count)) = false ∧
        hits b (point - count) (below b (point - count) + 1) = false := by
  unfold gridPoint
  dsimp only
  split
  next hfirst hsecond =>
    split_ifs
    · exact .inl ⟨_, rfl, hsecond, le_rfl⟩
    · exact .inl ⟨_, rfl, hfirst, Nat.le_succ _⟩
  next hfirst _ => exact .inl ⟨_, rfl, hfirst, Nat.le_succ _⟩
  next _ hsecond => exact .inl ⟨_, rfl, hsecond, le_rfl⟩
  next hfirst hsecond => exact .inr ⟨rfl, hfirst, hsecond⟩

/-- **A fine grid has a point for the double.** -/
theorem exists_gridPoint (hm : 0 < b.mantissa)
    (hfine : (10 : ℚ) ^ (point - count) < b.high - b.low) :
    ∃ k, gridPoint .double b point count = some k := by
  rcases gridPoint_cases b point count with ⟨k, hk, -⟩ | ⟨-, hfirst, hsecond⟩
  · exact ⟨k, hk⟩
  · exfalso
    obtain ⟨hfloor, hceil⟩ := below_spec b (point - count)
    have hlow : below b (point - count) * (10 : ℚ) ^ (point - count) ≤ b.low := by
      by_contra hlt
      have hcovers := Binary.Covers.of_lt (not_le.mp hlt) (hfloor.trans_lt b.magnitude_lt_high)
      rw [(hits_iff hm).mpr hcovers] at hfirst
      cases hfirst
    have hhigh : b.high ≤ (below b (point - count) + 1) * (10 : ℚ) ^ (point - count) := by
      by_contra hlt
      have hcovers := Binary.Covers.of_lt (b.low_lt_magnitude.trans hceil) (not_le.mp hlt)
      have hnext : hits b (point - count) (below b (point - count) + 1) = true :=
        (hits_iff hm).mpr (by exact_mod_cast hcovers)
      rw [hnext] at hsecond
      cases hsecond
    linarith

/-! ### The digits -/

/-- The value of digits. -/
def Digits.value (d : Digits) : ℚ := d.coefficient * 10 ^ (d.point - d.count)

/-- Digits as they are written: at least one, and as many as the coefficient needs. -/
structure Digits.AreWritten (d : Digits) : Prop where
  count_pos : 0 < d.count
  coefficient_lt : d.coefficient < 10 ^ d.count

theorem ofRounded_spec (point : ℤ) (hcount : 0 < count) (hk : k ≤ 10 ^ count) :
    (Digits.ofRounded k count point).AreWritten ∧
      (Digits.ofRounded k count point).value = k * 10 ^ (point - count) := by
  simp only [Digits.ofRounded, Nat.pow_eq]
  by_cases hcarry : k = 10 ^ count
  · rw [if_pos hcarry]
    refine ⟨⟨hcount, Nat.pow_lt_pow_right (by norm_num) (Nat.sub_lt hcount one_pos)⟩, ?_⟩
    have hshift : ((count - 1 : ℕ) : ℤ) + (point + 1 - count) = (count : ℤ) + (point - count) := by
      omega
    rw [Digits.value, hcarry]
    push_cast
    rw [← zpow_natCast, ← zpow_natCast, ← zpow_add₀ (by norm_num), ← zpow_add₀ (by norm_num),
      hshift]
  · rw [if_neg hcarry]
    exact ⟨⟨hcount, Nat.lt_of_le_of_ne hk hcarry⟩, rfl⟩

/-- Trying one grid after the other finds a point of one of them, if the last has one. -/
theorem exists_of_shortestFrom (b : Binary) (point : ℤ) : ∀ fuel count : ℕ,
    (∃ k, gridPoint .double b point (count + fuel) = some k) →
      ∃ n k, count ≤ n ∧ gridPoint .double b point n = some k ∧
        shortestFrom .double b point (fuel + 1) count = Digits.ofRounded k n point
  | fuel, count, hlast => by
    rw [shortestFrom]
    cases hgrid : gridPoint .double b point count with
    | some k => exact ⟨count, k, le_rfl, hgrid, rfl⟩
    | none =>
      cases fuel with
      | zero =>
        rw [Nat.add_zero, hgrid] at hlast
        obtain ⟨k, hk⟩ := hlast
        cases hk
      | succ fuel =>
        obtain ⟨n, k, hle, hk, hfrom⟩ := exists_of_shortestFrom b point fuel (count + 1)
          (by rwa [Nat.add_right_comm])
        exact ⟨n, k, by omega, hk, hfrom⟩

theorem seventeen_fine (hb : b.IsDouble) (hm : 0 < b.mantissa) :
    (10 : ℚ) ^ (decimalPoint b.ratio.1 b.ratio.2 - (17 : ℕ)) < b.high - b.low := by
  obtain ⟨hpoint, -⟩ := decimalPoint_ratio hb hm
  generalize decimalPoint b.ratio.1 b.ratio.2 = point at hpoint
  have hunit : (0 : ℚ) < 2 ^ (b.exponent - 2) := by positivity
  have hgrid : (10 : ℚ) ^ (point - 1) = 10 ^ 16 * 10 ^ (point - (17 : ℕ)) := by
    have hsplit : point - 1 = ((16 : ℕ) : ℤ) + (point - (17 : ℕ)) := by omega
    rw [hsplit, zpow_add₀ (by norm_num), zpow_natCast]
  have hwidth : b.high - b.low = (2 + b.gap) * 2 ^ (b.exponent - 2) := by
    rw [Binary.high, Binary.low]
    ring
  have hdigits : 4 * b.mantissa < (2 + b.gap) * 10 ^ 16 := by
    have hlt := hb.mantissa_lt
    unfold Binary.gap
    split_ifs with h
    · omega
    · omega
  have hdigitsQ : (4 * b.mantissa : ℚ) < (2 + b.gap) * 10 ^ 16 := by exact_mod_cast hdigits
  have hscaled : (4 * b.mantissa : ℚ) * 2 ^ (b.exponent - 2)
      < (2 + b.gap) * 10 ^ 16 * 2 ^ (b.exponent - 2) := mul_lt_mul_of_pos_right hdigitsQ hunit
  rw [magnitude_eq, hgrid] at hpoint
  rw [hwidth]
  linarith

/-- **The shortest digits of a double round to it.** -/
theorem covers_shortest (hb : b.IsDouble) (hm : 0 < b.mantissa) :
    (shortest b).AreWritten ∧ b.Covers (shortest b).value := by
  obtain ⟨-, hpoint⟩ := decimalPoint_ratio hb hm
  have hlast := exists_gridPoint hm (seventeen_fine hb hm)
  obtain ⟨n, k, hn, hk, hfrom⟩ := exists_of_shortestFrom b _ 16 1 hlast
  rw [shortest, hfrom]
  generalize decimalPoint b.ratio.1 b.ratio.2 = point at hk hpoint ⊢
  rcases gridPoint_cases b point n with ⟨k', hk', hhits, hle⟩ | ⟨hnone, -⟩
  · obtain rfl := Option.some.inj (hk'.symm.trans hk)
    have hunit : (0 : ℚ) < 10 ^ (point - n) := by positivity
    have hgrid : (10 : ℚ) ^ point = 10 ^ n * 10 ^ (point - n) := by
      have hsplit : point = (n : ℤ) + (point - n) := by omega
      rw [← zpow_natCast, ← zpow_add₀ (by norm_num), ← hsplit]
    have hbelow : below b (point - n) < 10 ^ n := by
      have hlt := (below_spec b (point - n)).1.trans_lt hpoint
      rw [hgrid] at hlt
      exact_mod_cast lt_of_mul_lt_mul_right hlt hunit.le
    obtain ⟨hwritten, hvalue⟩ := ofRounded_spec point hn (hle.trans hbelow)
    exact ⟨hwritten, hvalue ▸ (hits_iff hm).mp hhits⟩
  · rw [hnone] at hk
    cases hk

end LinModel.Number
