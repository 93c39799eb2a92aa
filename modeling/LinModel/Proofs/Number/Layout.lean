import LinModel.Number.Layout
import LinModel.Number.Reading
import LinModel.Variable
import LinModel.Proofs.Number.Shortest

/-!
# The text of a number tells the number

Digits are laid out as a whole part, a fraction behind a point and an exponent, of which the
fraction or the exponent may be missing (`Number.LaidOut`). Such a text is read as the digits it was
made of, with the exponent of the last one (`Number.LaidOut.reads`), so the shortest digits of a
double are got back from its text, and they round to no other double
(`Number.parts_eq_of_plainText`). A text with a point or an exponent is not that of a whole number,
and whole numbers are told by their digits. In front of the magnitude is the sign
(`Number.numeral_eq`), so a double is told by its text, but for the sign of a zero
(`Number.eq_or_isZero_of_numeral`).

Key definitions: `Number.LaidOut`, `Number.plainText`, `Number.magnitudeText`.
Key theorems: `Number.LaidOut.reads`, `Number.Digits.isTextOf_positional`,
`Number.Digits.isTextOf_scientific`, `Number.parts_eq_of_magnitudeText`, `Number.numeral_eq`,
`Number.eq_or_isZero_of_numeral`.
-/
namespace LinModel.Number

/-! ### Digits in writing -/

/-- All characters are digits. -/
def AllDigits (cs : List Char) : Prop := ∀ c ∈ cs, c.isDigit = true

theorem AllDigits.append {cs cs' : List Char} (h : AllDigits cs) (h' : AllDigits cs') :
    AllDigits (cs ++ cs') := List.forall_mem_append.mpr ⟨h, h'⟩

theorem allDigits_replicate (n : ℕ) : AllDigits (List.replicate n '0') := by
  intro c hc
  rw [(List.mem_replicate.mp hc).2]
  rfl

theorem allDigits_toDigits (n : ℕ) : AllDigits (Nat.toDigits 10 n) :=
  fun _ hc => Nat.isDigit_of_mem_toDigits (by norm_num) le_rfl hc

theorem digitsValue_eq (cs : List Char) : digitsValue cs = Nat.ofDigitChars 10 cs 0 := by
  unfold digitsValue Nat.ofDigitChars
  simp only [Nat.mul_comm 10]

theorem digitsValue_toDigits (n : ℕ) : digitsValue (Nat.toDigits 10 n) = n := by
  rw [digitsValue_eq, Nat.ofDigitChars_ten_toDigits]

theorem digitsValue_zeros (n : ℕ) (cs : List Char) :
    digitsValue (List.replicate n '0' ++ cs) = digitsValue cs := by
  rw [digitsValue_eq, Nat.ofDigitChars_append, Nat.ofDigitChars_replicate_zero, mul_zero,
    digitsValue_eq]

theorem digitsValue_append_zeros (cs : List Char) (n : ℕ) :
    digitsValue (cs ++ List.replicate n '0') = digitsValue cs * 10 ^ n := by
  rw [digitsValue_eq, Nat.ofDigitChars_append, Nat.ofDigitChars_replicate_zero, mul_comm,
    digitsValue_eq]

namespace Digits

variable {d : Digits}

theorem allDigits_chars : AllDigits d.chars :=
  (allDigits_replicate _).append (allDigits_toDigits _)

theorem digitsValue_chars : digitsValue d.chars = d.coefficient := by
  rw [chars, digitsValue_zeros, digitsValue_toDigits]

theorem AreWritten.length_chars (h : d.AreWritten) : d.chars.length = d.count := by
  have hle : (Nat.toDigits 10 d.coefficient).length ≤ d.count :=
    (Nat.length_toDigits_le_iff (by norm_num) h.count_pos).mpr h.coefficient_lt
  rw [chars, List.length_append, List.length_replicate]
  omega

end Digits

/-! ### Layouts -/

/-- Digits laid out with a point, an exponent or both, and the exponent of the last digit. -/
inductive LaidOut : List Char → List Char → ℤ → Prop
  | point {whole fraction : List Char} : AllDigits whole → whole ≠ [] → AllDigits fraction →
      LaidOut (whole ++ '.' :: fraction) (whole ++ fraction) (-fraction.length)
  | exponent {whole : List Char} (e : ℤ) : AllDigits whole → whole ≠ [] →
      LaidOut (whole ++ (exponentText e).toList) whole e
  | both {whole fraction : List Char} (e : ℤ) : AllDigits whole → whole ≠ [] →
      AllDigits fraction → LaidOut (whole ++ '.' :: (fraction ++ (exponentText e).toList))
        (whole ++ fraction) (e - fraction.length)

/-- The exponent is written as its mark, its sign and its digits. -/
theorem exists_exponentText (e : ℤ) : ∃ digits, AllDigits digits ∧ digits ≠ [] ∧
    digitsValue digits = e.natAbs ∧
      (exponentText e).toList = 'e' :: (if e < 0 then '-' else '+') :: digits := by
  let wide := if (Nat.toDigits 10 e.natAbs).length < 2 then '0' :: Nat.toDigits 10 e.natAbs
    else Nat.toDigits 10 e.natAbs
  have htext : (exponentText e).toList = 'e' :: (if e < 0 then '-' else '+') :: wide := by
    have hminus : "e-".toList = ['e', '-'] := rfl
    have hplus : "e+".toList = ['e', '+'] := rfl
    unfold exponentText
    rw [String.toList_append, String.toList_ofList]
    by_cases he : e < 0
    · rw [if_pos he, if_pos he, hminus]
      rfl
    · rw [if_neg he, if_neg he, hplus]
      rfl
  refine ⟨wide, ?_, ?_, ?_, htext⟩
  · dsimp only [wide]
    split_ifs
    · exact List.forall_mem_cons.mpr ⟨rfl, allDigits_toDigits _⟩
    · exact allDigits_toDigits _
  · dsimp only [wide]
    split_ifs
    · exact List.cons_ne_nil _ _
    · exact Nat.toDigits_ne_nil
  · dsimp only [wide]
    split_ifs
    · exact (digitsValue_zeros 1 _).trans (digitsValue_toDigits _)
    · exact digitsValue_toDigits _

theorem exponent?_exponentText (e : ℤ) : exponent? (exponentText e).toList = some e := by
  obtain ⟨digits, hdigits, hne, hvalue, htext⟩ := exists_exponentText e
  have hall : digits.all Char.isDigit = true := List.all_eq_true.mpr hdigits
  have hempty : digits.isEmpty = false := by simpa using hne
  by_cases he : e < 0
  · have hneg : -|e| = e := by rw [abs_of_neg he, neg_neg]
    rw [htext, if_pos he]
    simp [exponent?, hall, hempty, hvalue, hneg]
  · have hnonneg : |e| = e := abs_of_nonneg (not_lt.mp he)
    rw [htext, if_neg he]
    simp [exponent?, hall, hempty, hvalue, hnonneg]

/-- Digits at the front end where something else begins. -/
theorem spanDigits_append {digits : List Char} (rest : List Char) (h : AllDigits digits)
    (hrest : ∀ c ∈ rest.head?, c.isDigit = false) :
    spanDigits (digits ++ rest) = (digits, rest) := by
  have hstop : rest.takeWhile Char.isDigit = [] ∧ rest.dropWhile Char.isDigit = rest := by
    cases rest with
    | nil => exact ⟨rfl, rfl⟩
    | cons c rest =>
      have hc := Bool.eq_false_iff.mp (hrest c rfl)
      exact ⟨List.takeWhile_cons_of_neg hc, List.dropWhile_cons_of_neg hc⟩
  rw [spanDigits, List.takeWhile_append_of_pos h, List.dropWhile_append_of_pos h, hstop.1, hstop.2,
    List.append_nil]

variable {cs digits : List Char} {e : ℤ}

/-- **What is laid out is read** as its digits with the exponent of the last one. -/
theorem LaidOut.reads (h : LaidOut cs digits e) : decimalParts? cs = some (digits, e) := by
  cases h with
  | @point whole fraction hwhole hne hfraction =>
    have hspan := spanDigits_append ('.' :: fraction) hwhole (by simp)
    have hrest := spanDigits_append [] hfraction (by simp)
    rw [List.append_nil] at hrest
    simp [decimalParts?, hspan, hrest, hne, exponent?]
  | @exponent whole e hwhole hne =>
    obtain ⟨_, -, -, -, htext⟩ := exists_exponentText e
    have hspan := spanDigits_append (exponentText e).toList hwhole (by simp [htext])
    have hexponent := exponent?_exponentText e
    rw [htext] at hspan hexponent ⊢
    simp [decimalParts?, hspan, hne, hexponent]
  | @both whole fraction e hwhole hne hfraction =>
    obtain ⟨_, -, -, -, htext⟩ := exists_exponentText e
    have hspan := spanDigits_append ('.' :: (fraction ++ (exponentText e).toList)) hwhole
      (by simp)
    have hrest := spanDigits_append (exponentText e).toList hfraction (by simp [htext])
    simp [decimalParts?, hspan, hrest, hne, exponent?_exponentText e]

/-- Digits or marks, a digit first, and a point or the mark of an exponent among them. -/
structure IsMarked (cs : List Char) : Prop where
  starts : ∃ c rest, cs = c :: rest ∧ c.isDigit = true
  chars : ∀ c ∈ cs, c.isDigit = true ∨ c ∈ ['.', 'e', '+', '-']
  marked : '.' ∈ cs ∨ 'e' ∈ cs

theorem exponentText_chars (e : ℤ) : (∀ c ∈ (exponentText e).toList,
    c.isDigit = true ∨ c ∈ ['.', 'e', '+', '-']) ∧ 'e' ∈ (exponentText e).toList := by
  obtain ⟨ds, hds, -, -, htext⟩ := exists_exponentText e
  rw [htext]
  refine ⟨?_, List.mem_cons_self⟩
  simp only [List.forall_mem_cons]
  refine ⟨by simp, ?_, fun c hc => .inl (hds c hc)⟩
  split_ifs <;> simp

theorem LaidOut.isMarked (h : LaidOut cs digits e) : IsMarked cs := by
  have hstart : ∀ {whole : List Char} (rest : List Char), AllDigits whole → whole ≠ [] →
      ∃ c tail, whole ++ rest = c :: tail ∧ c.isDigit = true := by
    intro whole rest hwhole hne
    obtain ⟨c, tail, rfl⟩ := List.exists_cons_of_ne_nil hne
    exact ⟨c, tail ++ rest, rfl, hwhole c List.mem_cons_self⟩
  cases h with
  | @point whole fraction hwhole hne hfraction =>
    refine ⟨hstart _ hwhole hne, ?_, .inl (by simp)⟩
    simp only [List.forall_mem_append, List.forall_mem_cons]
    exact ⟨fun c hc => .inl (hwhole c hc), .inr (by simp), fun c hc => .inl (hfraction c hc)⟩
  | @exponent whole e hwhole hne =>
    obtain ⟨hchars, hmark⟩ := exponentText_chars e
    refine ⟨hstart _ hwhole hne, ?_, .inr (List.mem_append_right _ hmark)⟩
    exact List.forall_mem_append.mpr ⟨fun c hc => .inl (hwhole c hc), hchars⟩
  | @both whole fraction e hwhole hne hfraction =>
    obtain ⟨hchars, -⟩ := exponentText_chars e
    refine ⟨hstart _ hwhole hne, ?_, .inl (by simp)⟩
    simp only [List.forall_mem_append, List.forall_mem_cons]
    exact ⟨fun c hc => .inl (hwhole c hc), .inr (by simp),
      fun c hc => .inl (hfraction c hc), hchars⟩

/-! ### Digits laid out -/

namespace Digits

variable {d : Digits}

/-- A text that the digits with their value can be read from. -/
def IsTextOf (d : Digits) (cs : List Char) : Prop :=
  ∃ digits e, LaidOut cs digits e ∧ (digitsValue digits : ℚ) * 10 ^ e = d.value

/-- Digits around the point, in the three ways in which the point may stand to them. -/
theorem toList_positional (d : Digits) :
    d.point ≤ 0 ∧ (d.positional ".0").toList
        = ['0'] ++ '.' :: (List.replicate d.point.natAbs '0' ++ d.chars) ∨
      0 < d.point ∧ d.chars.length ≤ d.point.natAbs ∧ (d.positional ".0").toList
        = (d.chars ++ List.replicate (d.point.natAbs - d.chars.length) '0') ++ '.' :: ['0'] ∨
      0 < d.point ∧ d.point.natAbs < d.chars.length ∧ (d.positional ".0").toList
        = d.chars.take d.point.natAbs ++ '.' :: d.chars.drop d.point.natAbs := by
  unfold positional
  by_cases hsmall : d.point ≤ 0
  · simp only [hsmall, if_true, String.toList_append, String.toList_ofList]
    exact .inl ⟨trivial, rfl⟩
  · have hpos := not_le.mp hsmall
    simp only [hsmall, if_false, false_and, false_or, hpos, true_and]
    by_cases hshort : d.chars.length ≤ d.point.natAbs
    · simp only [hshort, if_true, String.toList_append, String.toList_ofList]
      exact .inl ⟨trivial, rfl⟩
    · simp only [hshort, if_false, String.toList_append, String.toList_ofList, List.append_assoc]
      exact .inr ⟨not_le.mp hshort, rfl⟩

/-- **Digits around the point are laid out.** -/
theorem isTextOf_positional (h : d.AreWritten) : d.IsTextOf (d.positional ".0").toList := by
  have hlen := h.length_chars
  rcases toList_positional d with ⟨hsmall, htext⟩ | ⟨hpos, hshort, htext⟩ | ⟨hpos, hlong, htext⟩
  · -- zeros between the point and the digits
    have hexp : -((List.replicate d.point.natAbs '0' ++ d.chars).length : ℤ)
        = d.point - d.count := by
      rw [List.length_append, List.length_replicate, hlen]
      omega
    have hvalue : digitsValue (['0'] ++ (List.replicate d.point.natAbs '0' ++ d.chars))
        = d.coefficient := by
      rw [← digitsValue_chars, ← digitsValue_zeros d.point.natAbs d.chars]
      exact digitsValue_zeros 1 _
    rw [htext]
    refine ⟨_, _, .point (by simp [AllDigits]) (by simp)
      ((allDigits_replicate _).append allDigits_chars), ?_⟩
    rw [hexp, hvalue, value]
  · -- zeros between the digits and the point, and one behind it
    have hvalue :
        digitsValue (d.chars ++ List.replicate (d.point.natAbs - d.chars.length) '0' ++ ['0'])
          = d.coefficient * 10 ^ (d.point.natAbs - d.count) * 10 := by
      rw [← digitsValue_chars, hlen, ← digitsValue_append_zeros]
      exact digitsValue_append_zeros _ 1
    have hexp : ((d.point.natAbs - d.count : ℕ) : ℤ) = d.point - d.count := by omega
    have hne : d.chars ++ List.replicate (d.point.natAbs - d.chars.length) '0' ≠ [] := by
      have := h.count_pos
      rw [← List.length_pos_iff, List.length_append]
      omega
    rw [htext]
    refine ⟨_, _, .point (allDigits_chars.append (allDigits_replicate _)) hne
      (by simp [AllDigits]), ?_⟩
    rw [hvalue, value, ← hexp, zpow_natCast]
    push_cast
    rw [mul_assoc, mul_assoc]
    norm_num
  · -- the point between two digits
    have hexp : -((d.chars.drop d.point.natAbs).length : ℤ) = d.point - d.count := by
      rw [List.length_drop, hlen]
      omega
    have hne : d.chars.take d.point.natAbs ≠ [] := by
      rw [← List.length_pos_iff, List.length_take]
      omega
    rw [htext]
    refine ⟨_, _, .point (fun c hc => allDigits_chars c (List.mem_of_mem_take hc)) hne
      (fun c hc => allDigits_chars c (List.mem_of_mem_drop hc)), ?_⟩
    rw [hexp, List.take_append_drop, digitsValue_chars, value]

/-- **Digits with an exponent are laid out.** -/
theorem isTextOf_scientific (h : d.AreWritten) : d.IsTextOf d.scientific.toList := by
  have hlen := h.length_chars
  have hpos := h.count_pos
  have hdigits : AllDigits d.chars := allDigits_chars
  have hvalue : digitsValue d.chars = d.coefficient := digitsValue_chars
  rw [IsTextOf, value, ← hvalue]
  unfold scientific
  rcases hchars : d.chars with _ | ⟨c, _ | ⟨c', rest⟩⟩
  · rw [hchars, List.length_nil] at hlen
    omega
  · rw [hchars] at hlen hdigits
    have hexp : d.point - 1 = d.point - d.count := by
      rw [← hlen]
      rfl
    rw [← hexp, String.toList_append, String.toList_ofList]
    exact ⟨_, _, .exponent (d.point - 1) hdigits (List.cons_ne_nil _ _), rfl⟩
  · rw [hchars] at hlen hdigits
    have hexp : d.point - 1 - (c' :: rest).length = d.point - d.count := by
      simp only [List.length_cons] at hlen ⊢
      omega
    obtain ⟨hfirst, hrest⟩ := List.forall_mem_cons.mp hdigits
    rw [← hexp, String.toList_append, String.toList_ofList]
    have hwhole : AllDigits [c] := List.forall_mem_singleton.mpr hfirst
    exact ⟨_, _, .both (d.point - 1) hwhole (List.cons_ne_nil _ _) hrest, rfl⟩

end Digits

/-! ### Doubles in writing -/

variable {b c : Binary}

/-- The text of a positive double with the fewest digits that read back. -/
def plainText (b : Binary) : String :=
  if -4 ≤ (shortest b).point - 1 ∧ (shortest b).point - 1 < 16 then (shortest b).positional ".0"
  else (shortest b).scientific

/-- A text that a rational which rounds to the double can be read from. -/
theorem exists_laidOut_plainText (hb : b.IsDouble) (hm : 0 < b.mantissa) :
    ∃ digits e, LaidOut (plainText b).toList digits e ∧
      b.Covers ((digitsValue digits : ℚ) * 10 ^ e) := by
  obtain ⟨hwritten, hcovers⟩ := covers_shortest hb hm
  have htext : (shortest b).IsTextOf (plainText b).toList := by
    unfold plainText
    split_ifs
    · exact Digits.isTextOf_positional hwritten
    · exact Digits.isTextOf_scientific hwritten
  obtain ⟨digits, e, hlaid, hvalue⟩ := htext
  exact ⟨digits, e, hlaid, hvalue ▸ hcovers⟩

/-- **Doubles with the same text have the same parts.** -/
theorem parts_eq_of_plainText (hb : b.IsDouble) (hc : c.IsDouble) (hmb : 0 < b.mantissa)
    (hmc : 0 < c.mantissa) (h : plainText b = plainText c) :
    b.mantissa = c.mantissa ∧ b.exponent = c.exponent := by
  obtain ⟨digits, e, hlaid, hcovers⟩ := exists_laidOut_plainText hb hmb
  obtain ⟨digits', e', hlaid', hcovers'⟩ := exists_laidOut_plainText hc hmc
  have hread := hlaid.reads
  rw [h, hlaid'.reads] at hread
  cases hread
  exact eq_of_covers hb hc hcovers hcovers'

/-- The text of a magnitude: a whole number, or the fewest digits that read back. -/
def magnitudeText (b : Binary) : String :=
  if b.ratio.1 % b.ratio.2 = 0 then toString (b.ratio.1 / b.ratio.2) else plainText b

theorem mantissa_pos (h : b.ratio.1 % b.ratio.2 ≠ 0) : 0 < b.mantissa := by
  by_contra hzero
  have hnum : b.ratio.1 = 0 := by
    rw [Binary.ratio, Nat.eq_zero_of_not_pos hzero, Nat.zero_mul]
  rw [hnum, Nat.zero_mod] at h
  exact h rfl

theorem magnitude_eq_zero_iff (b : Binary) : b.magnitude = 0 ↔ b.mantissa = 0 := by
  have hpow : (2 : ℚ) ^ b.exponent ≠ 0 := zpow_ne_zero _ two_ne_zero
  rw [Binary.magnitude, mul_eq_zero, or_iff_left hpow, Nat.cast_eq_zero]

theorem magnitude_eq_of_whole (h : b.ratio.1 % b.ratio.2 = 0) :
    b.magnitude = ((b.ratio.1 / b.ratio.2 : ℕ) : ℚ) := by
  have hpos : (b.ratio.2 : ℚ) ≠ 0 := by
    have := (scale_spec b.exponent).2.1
    exact_mod_cast this.ne'
  rw [← ratio_eq, Nat.cast_div (Nat.dvd_of_mod_eq_zero h) hpos]

theorem whole_eq_zero_iff (h : b.ratio.1 % b.ratio.2 = 0) :
    b.ratio.1 / b.ratio.2 = 0 ↔ b.mantissa = 0 := by
  rw [← magnitude_eq_zero_iff, magnitude_eq_of_whole h, Nat.cast_eq_zero]

theorem toList_toString (n : ℕ) : (toString n).toList = Nat.toDigits 10 n := by
  rw [Nat.toString_eq_repr, Nat.toList_repr]

/-- The text of a magnitude has digits and marks, a digit first. -/
theorem magnitudeText_chars (hb : b.IsDouble) :
    (∃ c rest, (magnitudeText b).toList = c :: rest ∧ c.isDigit = true) ∧
      ∀ c ∈ (magnitudeText b).toList, c.isDigit = true ∨ c ∈ ['.', 'e', '+', '-'] := by
  unfold magnitudeText
  split_ifs with hwhole
  · rw [toList_toString]
    obtain ⟨c, rest, htext⟩ := List.exists_cons_of_ne_nil
      (Nat.toDigits_ne_nil (n := b.ratio.1 / b.ratio.2) (b := 10))
    have hdigits := allDigits_toDigits (b.ratio.1 / b.ratio.2)
    exact ⟨⟨c, rest, htext, hdigits c (htext ▸ List.mem_cons_self)⟩,
      fun c hc => .inl (hdigits c hc)⟩
  · obtain ⟨digits, e, hlaid, -⟩ := exists_laidOut_plainText hb (mantissa_pos hwhole)
    exact ⟨hlaid.isMarked.starts, hlaid.isMarked.chars⟩

theorem parts_eq_of_magnitude (hb : b.IsDouble) (hc : c.IsDouble) (h : b.magnitude = c.magnitude) :
    b.mantissa = c.mantissa ∧ (b.exponent = c.exponent ∨ b.mantissa = 0) := by
  by_cases hm : b.mantissa = 0
  · have hmc : c.mantissa = 0 :=
      (magnitude_eq_zero_iff c).mp (h ▸ (magnitude_eq_zero_iff b).mpr hm)
    exact ⟨hm.trans hmc.symm, .inr hm⟩
  · have hcovers : b.Covers b.magnitude := .of_lt b.low_lt_magnitude b.magnitude_lt_high
    have hcovers' : c.Covers b.magnitude := h ▸ .of_lt c.low_lt_magnitude c.magnitude_lt_high
    obtain ⟨hmantissa, hexponent⟩ := eq_of_covers hb hc hcovers hcovers'
    exact ⟨hmantissa, .inl hexponent⟩

/-- A whole number has no mark in its text, other texts of doubles have one. -/
theorem toString_ne_plainText (n : ℕ) (hb : b.IsDouble) (hm : 0 < b.mantissa) :
    toString n ≠ plainText b := by
  intro h
  obtain ⟨digits, e, hlaid, -⟩ := exists_laidOut_plainText hb hm
  have hdigits := allDigits_toDigits n
  rw [← toList_toString, h] at hdigits
  rcases hlaid.isMarked.marked with hmark | hmark
  · exact absurd (hdigits _ hmark) (by decide)
  · exact absurd (hdigits _ hmark) (by decide)

/-- **Magnitudes with the same text are the same.** -/
theorem parts_eq_of_magnitudeText (hb : b.IsDouble) (hc : c.IsDouble)
    (h : magnitudeText b = magnitudeText c) :
    b.mantissa = c.mantissa ∧ (b.exponent = c.exponent ∨ b.mantissa = 0) := by
  unfold magnitudeText at h
  split_ifs at h with hwhole hwhole' hwhole'
  · have hsame : b.magnitude = c.magnitude := by
      rw [magnitude_eq_of_whole hwhole, magnitude_eq_of_whole hwhole', eq_of_toString_eq h]
    exact parts_eq_of_magnitude hb hc hsame
  · exact absurd h (toString_ne_plainText _ hc (mantissa_pos hwhole'))
  · exact absurd h.symm (toString_ne_plainText _ hb (mantissa_pos hwhole))
  · obtain ⟨hm, he⟩ := parts_eq_of_plainText hb hc (mantissa_pos hwhole) (mantissa_pos hwhole') h
    exact ⟨hm, .inl he⟩

variable {x y : Float}

theorem toString_neg {n : ℕ} (h : n ≠ 0) : toString (-(n : ℤ)) = "-" ++ toString n := by
  obtain ⟨k, rfl⟩ := Nat.exists_eq_succ_of_ne_zero h
  rfl

theorem numeral_of_parts (h : Binary.ofFloat? x = some b) :
    numeral x = if b.negative = true ∧ b.mantissa ≠ 0 then "-" ++ magnitudeText b
      else magnitudeText b := by
  have htoInt : b.toInt? = if b.ratio.1 % b.ratio.2 = 0 then
      some (if b.negative = true then -((b.ratio.1 / b.ratio.2 : ℕ) : ℤ)
        else (b.ratio.1 / b.ratio.2 : ℕ)) else none := rfl
  have hplain : plain x = if b.negative = true
      then "-" ++ (if b.mantissa = 0 then "0.0" else plainText b)
      else if b.mantissa = 0 then "0.0" else plainText b := by
    rw [plain, signed, h]
    rfl
  rw [numeral, h, Option.bind_some, htoInt, magnitudeText]
  by_cases hwhole : b.ratio.1 % b.ratio.2 = 0
  · simp only [if_pos hwhole]
    by_cases hneg : b.negative = true
    · by_cases hzero : b.mantissa = 0
      · rw [if_pos hneg, if_neg (fun h => h.2 hzero), (whole_eq_zero_iff hwhole).mpr hzero]
        rfl
      · have hnum : b.ratio.1 / b.ratio.2 ≠ 0 := mt (whole_eq_zero_iff hwhole).mp hzero
        rw [if_pos hneg, if_pos ⟨hneg, hzero⟩, toString_neg hnum]
    · rw [if_neg hneg, if_neg (fun h => hneg h.1)]
      rfl
  · have hzero := (mantissa_pos hwhole).ne'
    simp only [hwhole, hplain, hzero, if_false, ne_eq, not_false_eq_true, and_true]

theorem numeral_abs (h : Binary.ofFloat? x = some b) :
    numeral (Scalar.abs x) = magnitudeText b := by
  rw [numeral_of_parts (ofFloat?_abs h), if_neg (fun h => Bool.false_ne_true h.1)]
  rfl

/-- **A number is written as its magnitude**, with a sign in front if it is below zero. -/
theorem numeral_eq (h : Scalar.isFinite x = true) :
    numeral x = if Scalar.le Scalar.zero x = true then numeral (Scalar.abs x)
      else "-" ++ numeral (Scalar.abs x) := by
  obtain ⟨b, hb, -⟩ := exists_parts h
  rw [numeral_of_parts hb, numeral_abs hb, zero_le_eq hb]
  cases b.negative <;> by_cases hzero : b.mantissa = 0 <;> simp [hzero]

/-- A text that begins otherwise than with a sign. -/
def IsUnsigned (s : String) : Prop := ∀ c ∈ s.toList.head?, c ≠ '-'

theorem isUnsigned_of_digit {s : String} (h : ∃ c rest, s.toList = c :: rest ∧ c.isDigit = true) :
    IsUnsigned s := by
  obtain ⟨c, rest, htext, hdigit⟩ := h
  rw [IsUnsigned, htext]
  rintro c ⟨⟩ rfl
  cases hdigit

/-- Texts without a sign, with one in front unless a condition holds, tell the text and the
condition. -/
theorem signed_inj {s t : String} (hs : IsUnsigned s) (ht : IsUnsigned t) {p q : Prop} [Decidable p]
    [Decidable q] (h : (if p then s else "-" ++ s) = if q then t else "-" ++ t) :
    (p ↔ q) ∧ s = t := by
  have hsign : ∀ {s t : String}, IsUnsigned t → "-" ++ s ≠ t := by
    rintro s t ht rfl
    have hminus : "-".toList = ['-'] := rfl
    rw [IsUnsigned, String.toList_append, hminus] at ht
    exact ht '-' rfl rfl
  by_cases hp : p
  · by_cases hq : q
    · rw [if_pos hp, if_pos hq] at h
      exact ⟨iff_of_true hp hq, h⟩
    · rw [if_pos hp, if_neg hq] at h
      exact absurd h.symm (hsign hs)
  · by_cases hq : q
    · rw [if_neg hp, if_pos hq] at h
      exact absurd h (hsign ht)
    · rw [if_neg hp, if_neg hq] at h
      exact ⟨iff_of_false hp hq, (String.append_right_inj "-").mp h⟩

/-- **A double is told by its sign and the text of its magnitude**, but for the sign of a zero. -/
theorem eq_or_isZero_of_numeral (hx : Scalar.isFinite x = true) (hy : Scalar.isFinite y = true)
    (h : numeral (Scalar.abs x) = numeral (Scalar.abs y))
    (hsign : Scalar.le Scalar.zero x = Scalar.le Scalar.zero y) :
    x = y ∨ Scalar.isZero x = true ∧ Scalar.isZero y = true := by
  obtain ⟨b, hbx, hb⟩ := exists_parts hx
  obtain ⟨c, hcy, hc⟩ := exists_parts hy
  rw [numeral_abs hbx, numeral_abs hcy] at h
  rw [zero_le_eq hbx, zero_le_eq hcy] at hsign
  obtain ⟨hmantissa, hexponent⟩ := parts_eq_of_magnitudeText hb hc h
  by_cases hzero : b.mantissa = 0
  · rw [isZero_eq hbx, isZero_eq hcy, ← hmantissa]
    exact .inr ⟨decide_eq_true hzero, decide_eq_true hzero⟩
  · have hsame : b = c := by
      rw [← hmantissa, decide_eq_false hzero, Bool.or_false, Bool.or_false] at hsign
      obtain ⟨negative, mantissa, exponent⟩ := b
      obtain ⟨negative', mantissa', exponent'⟩ := c
      cases Bool.not_inj hsign
      cases hmantissa
      cases hexponent.resolve_right hzero
      rfl
    exact .inl (eq_of_parts hbx (hsame ▸ hcy))

end LinModel.Number
