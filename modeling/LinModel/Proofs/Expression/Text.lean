import LinModel.Expression.Text
import LinModel.Proofs.Expression.GeneralForm
import LinModel.Proofs.Number.Layout

/-!
# The text of an expression tells the expression

The text of an expression leaves out coefficients of magnitude one and a constant that is zero, and
puts the sign of a term in front of its magnitude, before the first term without a blank. It is a
list of words with blanks between them (`Expression.toText_eq`): the first term with its sign, and
then a sign and a magnitude in turn. If names have no blank, the words are got back from the text
(`Expression.words_eq_of_toText`). If names have no star either, and begin neither as a number nor
with a sign, a word is a term in one way only, and never a constant (`Expression.termText_inj`,
`Expression.termText_ne_numeral`). So the words tell the terms and the constant one after the other
(`Expression.numbers_eq_of_laterWords`), but for the signs of zeros.

Of numbers this needs that their texts tell them (`LawfulNumerals`), which holds of doubles.

Key definitions: `VariableName.IsPlain`, `LawfulNumerals`, `Expression.words`.
Key theorems: `Expression.toText_eq`, `Expression.termText_inj`,
`Expression.numbers_eq_of_laterWords`, `Expression.eq_of_toText`.
-/
namespace LinModel

/-! ### Names and numbers -/

/-- A name without blanks and stars that does not begin with a digit or a minus sign. -/
structure VariableName.IsPlain (name : VariableName) : Prop where
  no_blank : ' ' ∉ name.text.toList
  no_star : '*' ∉ name.text.toList
  starts : ∀ c ∈ name.text.toList.head?, c.isDigit = false ∧ c ≠ '-'

instance (name : VariableName) : Decidable name.IsPlain :=
  decidable_of_iff (' ' ∉ name.text.toList ∧ '*' ∉ name.text.toList ∧
      (name.text.toList.head?.all fun c => !c.isDigit && c != '-') = true)
    ⟨fun h => ⟨h.1, h.2.1, fun c hc => by simpa [Option.mem_def.mp hc] using h.2.2⟩,
      fun h => ⟨h.no_blank, h.no_star, by simpa [Option.all_eq_true] using h.starts⟩⟩

/-- The text of a magnitude: it begins with a digit and has no blanks and stars. -/
structure IsMagnitude (s : String) : Prop where
  no_blank : ' ' ∉ s.toList
  no_star : '*' ∉ s.toList
  starts : ∃ c rest, s.toList = c :: rest ∧ c.isDigit = true

/-- Numbers that are told by their texts, but for the sign of a zero. A text is that of the
magnitude, with a sign in front of it if the number is below zero. -/
class LawfulNumerals (K : Type) [Scalar K] [Numerals K] : Prop where
  eq_one_of_beq {a : K} : Scalar.beq a Scalar.one = true → a = Scalar.one
  isMagnitude {a : K} : Scalar.isFinite a = true → IsMagnitude (Numerals.numeral (Scalar.abs a))
  numeral_eq {a : K} : Scalar.isFinite a = true →
    Numerals.numeral a = if Scalar.le Scalar.zero a = true then Numerals.numeral (Scalar.abs a)
      else "-" ++ Numerals.numeral (Scalar.abs a)
  unsignZero_of_numeral {a b : K} : Scalar.isFinite a = true → Scalar.isFinite b = true →
    Numerals.numeral (Scalar.abs a) = Numerals.numeral (Scalar.abs b) →
      Scalar.le Scalar.zero a = Scalar.le Scalar.zero b → Scalar.unsignZero a = Scalar.unsignZero b

open Number in
instance : LawfulNumerals Float where
  eq_one_of_beq := eq_one_of_beq
  isMagnitude {a} h := by
    obtain ⟨b, hb, hdouble⟩ := exists_parts h
    obtain ⟨hstarts, hchars⟩ := magnitudeText_chars hdouble
    have htext : Numerals.numeral (Scalar.abs a) = magnitudeText b := numeral_abs hb
    rw [htext]
    exact ⟨fun hblank => by simpa using hchars _ hblank, fun hstar => by simpa using hchars _ hstar,
      hstarts⟩
  numeral_eq := numeral_eq
  unsignZero_of_numeral ha hb h hsign := by
    rcases eq_or_isZero_of_numeral ha hb h hsign with rfl | ⟨hza, hzb⟩
    · rfl
    · rw [Scalar.unsignZero_of_isZero hza, Scalar.unsignZero_of_isZero hzb]

namespace Expression

variable {K : Type} [Scalar K] [Numerals K]

/-! ### Words -/

/-- The word for a sign. -/
def signWord (a : K) : String := if Scalar.le Scalar.zero a then "+" else "-"

/-- The words behind the first term. -/
def laterWords : Coefficients K → K → List String
  | [], k =>
    if Scalar.beq k Scalar.zero then [] else [signWord k, Numerals.numeral (Scalar.abs k)]
  | (name, c) :: rest, k => signWord c :: termText name c :: laterWords rest k

/-- The first term, its sign in front. -/
def firstWord (name : VariableName) (c : K) : String :=
  if Scalar.le Scalar.zero c then termText name c else "-" ++ termText name c

/-- The words of an expression. -/
def words (cs : Coefficients K) (k : K) : List String :=
  match cs with
  | [] => [Numerals.numeral k]
  | (name, c) :: rest => firstWord name c :: laterWords rest k

omit [Numerals K] in
theorem signedText_first (c : K) (text : String) :
    signedText true c text = if Scalar.le Scalar.zero c then text else "-" ++ text := by
  unfold signedText
  cases Scalar.le Scalar.zero c <;> rfl

omit [Numerals K] in
/-- Behind the first term, the sign is a word of its own. -/
theorem intercalate_signedText (word : String) (c : K) (text : String) (rest : List String) :
    " ".intercalate (word :: signedText false c text :: rest)
      = " ".intercalate (word :: signWord c :: text :: rest) := by
  have hsigned : signedText false c text = signWord c ++ " " ++ text := by
    have hplus : "+ " = "+" ++ " " := rfl
    have hminus : "- " = "-" ++ " " := rfl
    unfold signedText signWord
    cases Scalar.le Scalar.zero c with
    | true => exact congrArg (· ++ text) hplus
    | false => exact congrArg (· ++ text) hminus
  rw [String.intercalate_cons_cons, hsigned, String.intercalate_cons_append,
    String.intercalate_cons_cons, String.intercalate_cons_cons]

/-- The parts behind the first term, as words. -/
theorem intercalate_later (k : K) : ∀ (rest : Coefficients K) (word : String),
    " ".intercalate (word :: (rest.map (fun (name, c) => signedText false c (termText name c))
        ++ constantText false k))
      = " ".intercalate (word :: laterWords rest k)
  | [], word => by
    change " ".intercalate (word :: if Scalar.beq k Scalar.zero then [] else
      [signedText false k (Numerals.numeral (Scalar.abs k))]) = _
    rw [laterWords]
    by_cases hzero : Scalar.beq k Scalar.zero = true
    · rw [if_pos hzero, if_pos hzero]
    · rw [if_neg hzero, if_neg hzero, intercalate_signedText]
  | (name, c) :: rest, word => by
    rw [List.map_cons, List.cons_append, intercalate_signedText, laterWords,
      String.intercalate_cons_cons, String.intercalate_cons_cons, intercalate_later k rest,
      ← String.intercalate_cons_cons, ← String.intercalate_cons_cons]

/-- **The text of an expression is its words**, with blanks between them. -/
theorem toText_eq (e : Expression K) :
    e.toText = " ".intercalate (words e.coefficients e.constant) := by
  unfold toText
  cases e.coefficients with
  | nil => rfl
  | cons entry rest =>
    obtain ⟨name, c⟩ := entry
    have hfirst : firstWord name c = signedText true c (termText name c) :=
      (signedText_first c _).symm
    rw [words, hfirst]
    exact intercalate_later e.constant rest _

/-! ### Reading words -/

variable [LawfulNumerals K] {name name' : VariableName} {a b c c' k k' : K}

theorem termText_eq (name : VariableName) (c : K) :
    Scalar.abs c = Scalar.one ∧ termText name c = name.text ∨
      termText name c = Numerals.numeral (Scalar.abs c) ++ "*" ++ name.text := by
  unfold termText
  by_cases hone : Scalar.beq (Scalar.abs c) Scalar.one = true
  · exact .inl ⟨LawfulNumerals.eq_one_of_beq hone, if_pos hone⟩
  · exact .inr (if_neg hone)

omit [LawfulNumerals K] in
theorem toList_product (s t : String) : (s ++ "*" ++ t).toList = s.toList ++ '*' :: t.toList := by
  have hstar : "*".toList = ['*'] := rfl
  rw [String.toList_append, String.toList_append, hstar, List.append_assoc]
  rfl

/-- **A term is told by its text**, but for its sign. -/
theorem termText_inj (hn : name.IsPlain) (hn' : name'.IsPlain) (hc : Scalar.isFinite c = true)
    (h : termText name c = termText name' c') : name = name' ∧
      Numerals.numeral (Scalar.abs c) = Numerals.numeral (Scalar.abs c') := by
  have hstar : ∀ s t : String, '*' ∈ (s ++ "*" ++ t).toList := by
    intro s t
    rw [toList_product]
    simp
  rcases termText_eq name c with ⟨hone, htext⟩ | htext <;>
    rcases termText_eq name' c' with ⟨hone', htext'⟩ | htext'
  · rw [htext, htext'] at h
    exact ⟨VariableName.eq_of_text_eq h, by rw [hone, hone']⟩
  · rw [htext, htext'] at h
    exact absurd (h ▸ hstar _ _) hn.no_star
  · rw [htext, htext'] at h
    exact absurd (h ▸ hstar _ _) hn'.no_star
  · rw [htext, htext'] at h
    have hlist := congrArg String.toList h
    rw [toList_product, toList_product, List.append_cons_inj_of_notMem
      (LawfulNumerals.isMagnitude hc).no_star hn.no_star] at hlist
    obtain ⟨hnumeral, -, hname⟩ := hlist
    exact ⟨VariableName.eq_of_text_eq (String.toList_inj.mp hname), String.toList_inj.mp hnumeral⟩

theorem termText_ne_numeral (hn : name.IsPlain) (hk : Scalar.isFinite k = true) :
    termText name c ≠ Numerals.numeral (Scalar.abs k) := by
  intro h
  have hnumber := LawfulNumerals.isMagnitude hk
  rw [← h] at hnumber
  rcases termText_eq name c with ⟨-, htext⟩ | htext
  · obtain ⟨d, rest, hstart, hdigit⟩ := hnumber.starts
    rw [htext] at hstart
    have hletter := (hn.starts d (by rw [hstart]; rfl)).1
    rw [hdigit] at hletter
    cases hletter
  · have hstar := hnumber.no_star
    rw [htext, toList_product] at hstar
    simp at hstar

theorem isUnsigned_termText (hn : name.IsPlain) (hc : Scalar.isFinite c = true) :
    Number.IsUnsigned (termText name c) := by
  rcases termText_eq name c with ⟨-, htext⟩ | htext
  · rw [htext]
    exact fun d hd => (hn.starts d hd).2
  · obtain ⟨d, rest, hstart, hdigit⟩ := (LawfulNumerals.isMagnitude hc).starts
    refine Number.isUnsigned_of_digit ⟨d, rest ++ '*' :: name.text.toList, ?_, hdigit⟩
    rw [htext, toList_product, hstart, List.cons_append]

theorem no_blank_termText (hn : name.IsPlain) (hc : Scalar.isFinite c = true) :
    ' ' ∉ (termText name c).toList := by
  rcases termText_eq name c with ⟨-, htext⟩ | htext
  · rw [htext]
    exact hn.no_blank
  · rw [htext, toList_product]
    have hnumeral := (LawfulNumerals.isMagnitude hc).no_blank
    have hname := hn.no_blank
    simp [hnumeral, hname]

omit [Numerals K] [LawfulNumerals K] in
theorem signWord_inj (h : signWord a = signWord b) :
    Scalar.le Scalar.zero a = Scalar.le Scalar.zero b := by
  have hne : "+" ≠ "-" := by decide
  unfold signWord at h
  cases ha : Scalar.le Scalar.zero a <;> cases hb : Scalar.le Scalar.zero b <;>
    simp_all

variable {cs cs' : Coefficients K}

/-- Plain names and finite coefficients. -/
def ArePlain (cs : Coefficients K) : Prop :=
  ∀ entry ∈ cs, entry.1.IsPlain ∧ Scalar.isFinite entry.2 = true

theorem laterWords_nil_ne (hn : name.IsPlain) (hk : Scalar.isFinite k = true)
    (rest : Coefficients K) : laterWords [] k ≠ laterWords ((name, c) :: rest) k' := by
  intro h
  rw [laterWords, laterWords] at h
  split_ifs at h
  obtain ⟨-, htext, -⟩ := List.cons.inj h |>.imp id List.cons.inj
  exact termText_ne_numeral hn hk htext.symm

/-- A constant is told by the words for it. -/
theorem unsignZero_eq_of_constant (hk : Scalar.isFinite k = true) (hk' : Scalar.isFinite k' = true)
    (h : laterWords [] k = laterWords [] k') : Scalar.unsignZero k = Scalar.unsignZero k' := by
  rw [laterWords, laterWords] at h
  cases hzero : Scalar.beq k Scalar.zero <;> cases hzero' : Scalar.beq k' Scalar.zero <;>
    simp only [hzero, hzero', if_true, if_false, Bool.false_eq_true, List.cons.injEq, and_true,
      reduceCtorEq] at h
  · obtain ⟨hsign, hnumeral⟩ := h
    exact LawfulNumerals.unsignZero_of_numeral hk hk' hnumeral (signWord_inj hsign)
  · rw [Scalar.unsignZero_of_isZero hzero, Scalar.unsignZero_of_isZero hzero']

/-- **The words behind the first term tell the terms and the constant.** -/
theorem numbers_eq_of_laterWords : ∀ {cs cs' : Coefficients K}, ArePlain cs → ArePlain cs' →
    Scalar.isFinite k = true → Scalar.isFinite k' = true → laterWords cs k = laterWords cs' k' →
      cs.mapValues Scalar.unsignZero = cs'.mapValues Scalar.unsignZero ∧
        Scalar.unsignZero k = Scalar.unsignZero k'
  | [], [], _, _, hk, hk', h => ⟨rfl, unsignZero_eq_of_constant hk hk' h⟩
  | [], (name, c) :: rest, _, hcs', hk, _, h =>
    absurd h (laterWords_nil_ne (hcs' _ List.mem_cons_self).1 hk rest)
  | (name, c) :: rest, [], hcs, _, _, hk', h =>
    absurd h.symm (laterWords_nil_ne (hcs _ List.mem_cons_self).1 hk' rest)
  | (name, c) :: rest, (name', c') :: rest', hcs, hcs', hk, hk', h => by
    obtain ⟨⟨hn, hc⟩, hrest⟩ := List.forall_mem_cons.mp hcs
    obtain ⟨⟨hn', hc'⟩, hrest'⟩ := List.forall_mem_cons.mp hcs'
    rw [laterWords, laterWords, List.cons.injEq, List.cons.injEq] at h
    obtain ⟨hsign, htext, hlater⟩ := h
    obtain ⟨rfl, hnumeral⟩ := termText_inj hn hn' hc htext
    have hcoefficient := LawfulNumerals.unsignZero_of_numeral hc hc' hnumeral (signWord_inj hsign)
    obtain ⟨hcoefficients, hconstant⟩ := numbers_eq_of_laterWords hrest hrest' hk hk' hlater
    exact ⟨congrArg₂ (fun c rest => (name, c) :: rest) hcoefficient hcoefficients, hconstant⟩

/-- A number alone is told by its text. -/
theorem unsignZero_eq_of_numeral (hk : Scalar.isFinite k = true) (hk' : Scalar.isFinite k' = true)
    (h : Numerals.numeral k = Numerals.numeral k') :
    Scalar.unsignZero k = Scalar.unsignZero k' := by
  rw [LawfulNumerals.numeral_eq hk, LawfulNumerals.numeral_eq hk'] at h
  obtain ⟨hsign, hnumeral⟩ := Number.signed_inj
    (Number.isUnsigned_of_digit (LawfulNumerals.isMagnitude hk).starts)
    (Number.isUnsigned_of_digit (LawfulNumerals.isMagnitude hk').starts) h
  exact LawfulNumerals.unsignZero_of_numeral hk hk' hnumeral (Bool.eq_iff_iff.mpr hsign)

theorem firstWord_ne_numeral (hn : name.IsPlain) (hc : Scalar.isFinite c = true)
    (hk : Scalar.isFinite k = true) : firstWord name c ≠ Numerals.numeral k := by
  intro h
  rw [LawfulNumerals.numeral_eq hk, firstWord] at h
  obtain ⟨-, htext⟩ := Number.signed_inj (isUnsigned_termText hn hc)
    (Number.isUnsigned_of_digit (LawfulNumerals.isMagnitude hk).starts) h
  exact termText_ne_numeral hn hk htext

theorem firstWord_inj (hn : name.IsPlain) (hn' : name'.IsPlain) (hc : Scalar.isFinite c = true)
    (hc' : Scalar.isFinite c' = true) (h : firstWord name c = firstWord name' c') :
    name = name' ∧ Scalar.unsignZero c = Scalar.unsignZero c' := by
  rw [firstWord, firstWord] at h
  obtain ⟨hsign, htext⟩ :=
    Number.signed_inj (isUnsigned_termText hn hc) (isUnsigned_termText hn' hc') h
  obtain ⟨hname, hnumeral⟩ := termText_inj hn hn' hc htext
  exact ⟨hname, LawfulNumerals.unsignZero_of_numeral hc hc' hnumeral (Bool.eq_iff_iff.mpr hsign)⟩

/-- **The words of an expression tell its terms and its constant.** -/
theorem numbers_eq_of_words (hcs : ArePlain cs) (hcs' : ArePlain cs')
    (hk : Scalar.isFinite k = true) (hk' : Scalar.isFinite k' = true)
    (h : words cs k = words cs' k') :
    cs.mapValues Scalar.unsignZero = cs'.mapValues Scalar.unsignZero ∧
      Scalar.unsignZero k = Scalar.unsignZero k' := by
  match cs, cs' with
  | [], [] => exact ⟨rfl, unsignZero_eq_of_numeral hk hk' (List.cons.inj h).1⟩
  | [], (name, c) :: rest =>
    obtain ⟨hn, hc⟩ := hcs' _ List.mem_cons_self
    exact absurd (List.cons.inj h).1.symm (firstWord_ne_numeral hn hc hk)
  | (name, c) :: rest, [] =>
    obtain ⟨hn, hc⟩ := hcs _ List.mem_cons_self
    exact absurd (List.cons.inj h).1 (firstWord_ne_numeral hn hc hk')
  | (name, c) :: rest, (name', c') :: rest' =>
    obtain ⟨⟨hn, hc⟩, hrest⟩ := List.forall_mem_cons.mp hcs
    obtain ⟨⟨hn', hc'⟩, hrest'⟩ := List.forall_mem_cons.mp hcs'
    obtain ⟨hfirst, hlater⟩ := List.cons.inj h
    obtain ⟨rfl, hcoefficient⟩ := firstWord_inj hn hn' hc hc' hfirst
    obtain ⟨hcoefficients, hconstant⟩ := numbers_eq_of_laterWords hrest hrest' hk hk' hlater
    exact ⟨congrArg₂ (fun c rest => (name, c) :: rest) hcoefficient hcoefficients, hconstant⟩

/-! ### Reading texts -/

omit [Numerals K] [LawfulNumerals K] in
theorem no_blank_signWord (a : K) : ' ' ∉ (signWord a).toList := by
  unfold signWord
  split_ifs <;> decide

theorem no_blank_laterWords (hk : Scalar.isFinite k = true) : ∀ {cs : Coefficients K}, ArePlain cs →
    ∀ w ∈ laterWords cs k, ' ' ∉ w.toList
  | [], _ => by
    rw [laterWords]
    split_ifs with hzero
    · exact List.forall_mem_nil _
    · simp only [List.forall_mem_cons, no_blank_signWord, not_false_eq_true, true_and]
      exact ⟨(LawfulNumerals.isMagnitude hk).no_blank, List.forall_mem_nil _⟩
  | (name, c) :: rest, hcs => by
    obtain ⟨⟨hn, hc⟩, hrest⟩ := List.forall_mem_cons.mp hcs
    rw [laterWords]
    simp only [List.forall_mem_cons]
    exact ⟨no_blank_signWord c, no_blank_termText hn hc, no_blank_laterWords hk hrest⟩

omit [Scalar K] [Numerals K] [LawfulNumerals K] in
theorem no_blank_signed {s : String} (h : ' ' ∉ s.toList) {p : Prop} [Decidable p] :
    ' ' ∉ (if p then s else "-" ++ s).toList := by
  have hminus : "-".toList = ['-'] := rfl
  split_ifs
  · exact h
  · rw [String.toList_append, hminus]
    simpa using h

theorem no_blank_words (hcs : ArePlain cs) (hk : Scalar.isFinite k = true) :
    ∀ w ∈ words cs k, ' ' ∉ w.toList := by
  match cs with
  | [] =>
    rw [words, LawfulNumerals.numeral_eq hk]
    exact List.forall_mem_singleton.mpr (no_blank_signed (LawfulNumerals.isMagnitude hk).no_blank)
  | (name, c) :: rest =>
    obtain ⟨⟨hn, hc⟩, hrest⟩ := List.forall_mem_cons.mp hcs
    exact List.forall_mem_cons.mpr
      ⟨no_blank_signed (no_blank_termText hn hc), no_blank_laterWords hk hrest⟩

omit [LawfulNumerals K] in
theorem words_ne_nil (cs : Coefficients K) (k : K) : words cs k ≠ [] := by
  cases cs <;> exact List.cons_ne_nil _ _

/-- **The words are got back from the text.** -/
theorem words_eq_of_toText {e e' : Expression K} (he : ArePlain e.coefficients)
    (he' : ArePlain e'.coefficients) (hk : Scalar.isFinite e.constant = true)
    (hk' : Scalar.isFinite e'.constant = true) (h : e.toText = e'.toText) :
    words e.coefficients e.constant = words e'.coefficients e'.constant := by
  have hsplit : ∀ {cs : Coefficients K} {k : K}, ArePlain cs → Scalar.isFinite k = true →
      (" ".intercalate (words cs k)).toList.splitOn ' ' = (words cs k).map String.toList := by
    intro cs k hcs hk
    have hblank : " ".toList = [' '] := rfl
    rw [String.toList_intercalate, hblank]
    refine List.splitOn_intercalate ' ' ?_ (by simpa using words_ne_nil cs k)
    simpa using no_blank_words hcs hk
  rw [toText_eq, toText_eq] at h
  have hwords := hsplit he hk
  rw [h, hsplit he' hk'] at hwords
  exact (List.map_injective_iff.mpr (fun _ _ => String.toList_inj.mp) hwords).symm

/-- **The text of an expression determines it.** Expressions of doubles, whatever their forms, whose
names have no blank and no star and begin with neither a digit nor a minus sign, have the same text
only if they have the same names in the same order with the same coefficients and the same constant,
but for the signs of zeros. -/
theorem eq_of_toText {e e' : Expression Float} (he : e.IsSound) (he' : e'.IsSound)
    (hn : ∀ name ∈ e.names, name.IsPlain) (hn' : ∀ name ∈ e'.names, name.IsPlain)
    (h : e.toText = e'.toText) :
    e.names = e'.names ∧
      e.coefficients.mapValues Scalar.unsignZero = e'.coefficients.mapValues Scalar.unsignZero ∧
      Scalar.unsignZero e.constant = Scalar.unsignZero e'.constant := by
  have hplain : ∀ {e : Expression Float}, e.IsSound → (∀ name ∈ e.names, name.IsPlain) →
      ArePlain e.coefficients := fun he hn entry hentry =>
    ⟨hn _ (List.mem_map_of_mem hentry), he.finite entry hentry⟩
  have hwords := words_eq_of_toText (hplain he hn) (hplain he' hn') he.finite_constant
    he'.finite_constant h
  obtain ⟨hcoefficients, hconstant⟩ := numbers_eq_of_words (hplain he hn) (hplain he' hn')
    he.finite_constant he'.finite_constant hwords
  refine ⟨?_, hcoefficients, hconstant⟩
  calc e.names = (e.coefficients.mapValues Scalar.unsignZero).keys :=
        (Entries.keys_mapValues _ _).symm
    _ = (e'.coefficients.mapValues Scalar.unsignZero).keys := by rw [hcoefficients]
    _ = e'.names := Entries.keys_mapValues _ _

/-- Three terms, one with a coefficient of magnitude one and one with a zero, and a constant. -/
def seesaw (least : Float) : Expression Float :=
  .linear [(⟨"left", by decide⟩, -1.0), (⟨"mid_2", by decide⟩, 0.1),
    (⟨"right-hand", by decide⟩, least)] (-3.0)

/-- A zero is written without its sign, and it is the sign only that the text does not tell. -/
theorem seesaw_told_by_text : (seesaw 0.0).toText = "-left + 0.1*mid_2 + 0*right-hand - 3" ∧
    (seesaw 0.0).names = (seesaw (-0.0)).names ∧
      (seesaw 0.0).coefficients.mapValues Scalar.unsignZero
        = (seesaw (-0.0)).coefficients.mapValues Scalar.unsignZero ∧
      Scalar.unsignZero (seesaw 0.0).constant = Scalar.unsignZero (seesaw (-0.0)).constant := by
  have htext : (seesaw 0.0).toText = "-left + 0.1*mid_2 + 0*right-hand - 3" := by decide +kernel
  have htext' : (seesaw (-0.0)).toText = "-left + 0.1*mid_2 + 0*right-hand - 3" := by
    decide +kernel
  have hnames : ∀ least : Float, (seesaw least).names
      = [⟨"left", by decide⟩, ⟨"mid_2", by decide⟩, ⟨"right-hand", by decide⟩] := fun _ => rfl
  have hsound : ∀ least : Float, Scalar.isFinite least = true → (seesaw least).IsSound := by
    intro least hfinite
    have hfirst : Scalar.isFinite (-1.0 : Float) = true := by decide +kernel
    have hsecond : Scalar.isFinite (0.1 : Float) = true := by decide +kernel
    have hconstant : Scalar.isFinite (-3.0 : Float) = true := by decide +kernel
    refine ⟨?_, hconstant, ?_⟩
    · unfold Coefficients.AreFinite seesaw coefficients
      simp only [List.forall_mem_cons, hfirst, hsecond, hfinite, true_and]
      exact List.forall_mem_nil _
    · rw [hnames]
      decide
  have hplain : ∀ least : Float, ∀ name ∈ (seesaw least).names, name.IsPlain := by
    intro least
    rw [hnames]
    simp only [List.forall_mem_cons]
    exact ⟨by decide, by decide, by decide, List.forall_mem_nil _⟩
  exact ⟨htext, eq_of_toText (hsound _ (by decide +kernel)) (hsound _ (by decide +kernel))
    (hplain _) (hplain _) (htext.trans htext'.symm)⟩

end Expression
end LinModel
