import CSharpAudit.Proofs.CSharp.Numbers

/-!
Tokens of numbers. No part of a number begins with a character that the part before
it could take in, so reading each part as far as it goes finds the parts of every
number. What the lexer reads is a number, every number is read whole, and nothing else
begins like one: the lexer tells exactly the integers, and exactly the real numbers
that are not written like integers.
-/

namespace CSharpAudit.CSharp

/-! Decimal numbers. -/

theorem IsFraction.starts {fraction : List Char} (h : IsFraction fraction) :
    Starts (· ∈ ['.']) fraction := by
  cases h with
  | none => exact .nil
  | point h => simp [Starts]

theorem IsExponent.starts {exponent : List Char} (h : IsExponent exponent) :
    Starts (· ∈ ['e', 'E']) exponent := by
  cases h with
  | none => exact .nil
  | power he _ _ => simpa [Starts] using he

section Decimal

variable {whole fraction exponent letters : List Char}

theorem starts_behind_fraction (hexponent : IsExponent exponent)
    (hletters : Starts (· ∈ suffixLetters) letters) :
    Starts (· ∈ ['e', 'E'] ++ suffixLetters) (exponent ++ letters) :=
  (hexponent.starts.imp fun _ => List.mem_append_left _).append
    (hletters.imp fun _ => List.mem_append_right _)

theorem starts_behind_whole (hfraction : IsFraction fraction) (hexponent : IsExponent exponent)
    (hletters : Starts (· ∈ suffixLetters) letters) :
    Starts (· ∈ ['.'] ++ (['e', 'E'] ++ suffixLetters)) (fraction ++ (exponent ++ letters)) :=
  (hfraction.starts.imp fun _ => List.mem_append_left _).append
    ((starts_behind_fraction hexponent hletters).imp fun _ => List.mem_append_right _)

theorem decimalLength_append (hwhole : IsDecimal whole ∨ whole = [] ∧ fraction ≠ [])
    (hfraction : IsFraction fraction) (hexponent : IsExponent exponent)
    (hletters : Starts (· ∈ suffixLetters) letters) :
    decimalLength (whole ++ (fraction ++ (exponent ++ letters))) =
      if fraction = [] ∧ exponent = [] ∧ realSuffix letters = 0 then
        (.integer, (whole ++ (fraction ++ exponent)).length + integerSuffix letters)
      else (.real, (whole ++ (fraction ++ exponent)).length + realSuffix letters) := by
  have hlength : (if (whole ++ (fraction ++ (exponent ++ letters))).head?.any Char.isDigit then
      digitsLength Char.isDigit (whole ++ (fraction ++ (exponent ++ letters))) else 0) =
        whole.length := by
    rcases hwhole with h | ⟨rfl, hne⟩
    · rw [digitsLength_append h.toIsDigits (by decide)
        ((starts_behind_whole hfraction hexponent hletters).of_all (by decide))]
      obtain ⟨d, rest, rfl, hd⟩ := h.toIsLooseDecimal.exists_cons
      simp [hd]
    · cases hfraction with
      | none => contradiction
      | point h => rfl
  have hfractionLength :=
    fractionLength_append hfraction (starts_behind_fraction hexponent hletters)
  have hexponentLength := exponentLength_append hexponent hletters
  simp only [decimalLength, hlength, ← List.drop_drop, List.drop_left, hfractionLength,
    hexponentLength, List.length_eq_zero_iff, List.length_append, Nat.add_assoc]

end Decimal

/-- How numbers begin: with a digit, or with a point and a digit. -/
def BeginsNumber (text : List Char) : Prop :=
  ∃ d rest, d.isDigit = true ∧ (text = d :: rest ∨ text = '.' :: d :: rest)

def IsNumberToken : TokenKind → List Char → Prop
  | .integer, text => ∃ suffix, IsInteger suffix text
  | .real, text => ∃ suffix, IsReal suffix text
  | _, _ => False

theorem isNumberToken_decimalLength {text : List Char} (h : BeginsNumber text) :
    IsNumberToken (decimalLength text).1 (text.take (decimalLength text).2) := by
  generalize hw : (if text.head?.any Char.isDigit then digitsLength Char.isDigit text else 0) = w
  have hwhole : IsDecimal (text.take w) ∨
      text.take w = [] ∧ (text.drop w).take (fractionLength (text.drop w)) ≠ [] := by
    obtain ⟨d, rest, hd, rfl | rfl⟩ := h
    · rw [List.head?_cons, Option.any_some, if_pos hd] at hw
      rw [← hw]
      exact .inl (isDecimal_take rest hd)
    · obtain rfl : 0 = w := hw
      refine .inr ⟨rfl, ?_⟩
      simp [fractionLength, hd]
  have hfraction := isFraction_take (text.drop w)
  simp only [decimalLength, hw]
  -- each part is read behind the one before, so the lengths are named from left to right
  generalize fractionLength (text.drop w) = f at hwhole hfraction ⊢
  have hexponent := isExponent_take (text.drop (w + f))
  generalize exponentLength (text.drop (w + f)) = e at hexponent ⊢
  split
  · next hnone =>
    obtain ⟨rfl, rfl, -⟩ := hnone
    obtain ⟨suffix, hsuffix⟩ := spelledAs_take_integerSuffix (text.drop w)
    have hdecimal := hwhole.resolve_right fun hempty => hempty.2 rfl
    exact ⟨suffix, _, _, List.take_add, .decimal hdecimal, hsuffix⟩
  · obtain ⟨suffix, hsuffix⟩ := spelledAs_take_realSuffix (text.drop (w + f + e))
    refine ⟨suffix, _, _, ?_, .parts hwhole hfraction hexponent, hsuffix⟩
    rw [List.take_add, List.take_add, List.take_add, List.append_assoc (text.take w)]

/-! Numbers of any base. -/

/-- A mark without digits behind it is no mark. -/
theorem numberLength_based {base : Char × (Char → Bool)} (hbase : base ∈ bases)
    (rest : List Char) :
    numberLength ('0' :: base.1 :: rest) =
      if digitsLength base.2 rest = 0 then decimalLength ('0' :: base.1 :: rest)
      else (.integer, 2 + digitsLength base.2 rest +
        integerSuffix (rest.drop (digitsLength base.2 rest))) := by
  simp only [bases, List.mem_cons, List.not_mem_nil, or_false] at hbase
  cases hlength : digitsLength base.2 rest with
  | zero =>
      rcases hbase with rfl | rfl | rfl | rfl <;>
        simp [numberLength, ← isBinaryDigit.eq_def, hlength]
  | succ n =>
      rcases hbase with rfl | rfl | rfl | rfl <;>
        simp [numberLength, ← isBinaryDigit.eq_def, hlength, Nat.add_comm 2]

theorem numberLength_of_forall_ne {text : List Char}
    (h : ∀ base ∈ bases, ∀ rest, text ≠ '0' :: base.1 :: rest) :
    numberLength text = decimalLength text := by
  unfold numberLength
  split
  · next x rest =>
    have hmark (base : Char × (Char → Bool)) (hbase : base ∈ bases) : x ≠ base.1 := by
      rintro rfl
      exact h base hbase rest rfl
    simp only [bases, List.forall_mem_cons] at hmark
    simp [hmark]
  · rfl

theorem isNumberToken_numberLength {text : List Char} (h : BeginsNumber text) :
    IsNumberToken (numberLength text).1 (text.take (numberLength text).2) := by
  by_cases hbased : ∃ base ∈ bases, ∃ rest, text = '0' :: base.1 :: rest
  · obtain ⟨base, hbase, rest, rfl⟩ := hbased
    rw [numberLength_based hbase]
    split
    · exact isNumberToken_decimalLength h
    · next hdigits =>
      obtain ⟨suffix, hsuffix⟩ :=
        spelledAs_take_integerSuffix (rest.drop (digitsLength base.2 rest))
      refine ⟨suffix, _, _, ?_, .based hbase (isDigits_take hdigits), hsuffix⟩
      rw [Nat.add_assoc, Nat.add_comm 2, List.take_succ_cons, List.take_succ_cons, List.take_add]
      rfl
  · rw [numberLength_of_forall_ne (by simpa using hbased)]
    exact isNumberToken_decimalLength h

theorem not_digit_of_mem_bases :
    ∀ mark ∈ bases.map Prod.fst, ¬ (mark.isDigit = true ∨ mark = '_') := by
  simp [bases]

theorem not_digit_of_integerSuffix :
    ∀ base ∈ bases, base.2 '_' = false ∧
      ∀ c ∈ ['u', 'U', 'l', 'L'], (base.2 c || c == '_') = false := by
  simp [bases, isHexDigit, isBinaryDigit]

/-- No decimal number looks like one of another base. -/
theorem numberLength_append {whole fraction exponent letters : List Char}
    (hwhole : IsDecimal whole ∨ whole = [] ∧ fraction ≠ []) (hfraction : IsFraction fraction)
    (hexponent : IsExponent exponent) (hletters : Starts (· ∈ suffixLetters) letters) :
    numberLength (whole ++ (fraction ++ (exponent ++ letters))) =
      decimalLength (whole ++ (fraction ++ (exponent ++ letters))) := by
  apply numberLength_of_forall_ne
  intro base hbase rest htext
  rcases hwhole with h | ⟨rfl, hne⟩
  · obtain ⟨d, more, rfl, -⟩ := h.toIsLooseDecimal.exists_cons
    rw [List.cons_append] at htext
    obtain ⟨-, hsecond⟩ := List.cons.inj htext
    -- the second character belongs to the digits or begins the next part
    have hstarts : Starts (· ∉ bases.map Prod.fst) (more ++ (fraction ++ (exponent ++ letters))) :=
      .append
        (.of_forall_mem fun c hc hmark =>
          not_digit_of_mem_bases c hmark (h.chars c (List.mem_cons_of_mem d hc)))
        ((starts_behind_whole hfraction hexponent hletters).of_all (by decide))
    rw [hsecond] at hstarts
    exact hstarts base.1 rfl (List.mem_map_of_mem hbase)
  · cases hfraction with
    | none => contradiction
    | point h => simp at htext

theorem numberLength_of_isInteger {suffix : IntegerSuffix} {text : List Char}
    (h : IsInteger suffix text) : numberLength text = (.integer, text.length) := by
  obtain ⟨digits, letters, rfl, hdigits, hspelled⟩ := h
  obtain ⟨hsuffix, hreal⟩ := integerSuffix_eq hspelled
  have hletters : Starts (· ∈ ['u', 'U', 'l', 'L']) letters :=
    .of_forall_mem (IntegerSuffix.forall_mem hspelled)
  cases hdigits with
  | decimal h =>
      have hdecimal := decimalLength_append (.inl h) .none .none (hletters.of_all (by decide))
      rw [← numberLength_append (.inl h) .none .none (hletters.of_all (by decide))] at hdecimal
      simpa [hreal, hsuffix] using hdecimal
  | @based base digits hbase h =>
      obtain ⟨hlow, hstop⟩ := not_digit_of_integerSuffix base hbase
      have hlength := digitsLength_append h hlow (hletters.imp hstop)
      have hne : digits.length ≠ 0 := by
        obtain ⟨d, hlast, -⟩ := h.last
        exact (List.length_pos_of_mem (List.mem_of_getLast? hlast)).ne'
      rw [List.cons_append, List.cons_append, numberLength_based hbase, hlength, if_neg hne,
        List.drop_left, hsuffix]
      simp only [List.length_cons, List.length_append, Prod.mk.injEq, true_and]
      omega

theorem numberLength_of_isReal {suffix : RealSuffix} {text : List Char} (h : IsReal suffix text)
    (hinteger : ∀ other, ¬ IsInteger other text) : numberLength text = (.real, text.length) := by
  obtain ⟨digits, letters, rfl, ⟨hwhole, hfraction, hexponent⟩, hspelled⟩ := h
  have hletters : Starts (· ∈ suffixLetters) letters :=
    (Starts.of_forall_mem (RealSuffix.forall_mem hspelled)).of_all (by decide)
  have hsuffix := realSuffix_eq hspelled
  rw [List.append_assoc, List.append_assoc, numberLength_append hwhole hfraction hexponent hletters,
    decimalLength_append hwhole hfraction hexponent hletters, if_neg]
  · simp [hsuffix, Nat.add_assoc]
  · -- with no other part there is nothing but the digits of an integer
    rintro ⟨rfl, rfl, hzero⟩
    rw [hsuffix, List.length_eq_zero_iff] at hzero
    subst hzero
    have hdecimal := hwhole.resolve_right fun hempty => hempty.2 rfl
    exact hinteger .none ⟨_, [], by simp, .decimal hdecimal, .nil⟩

/-! Tokens. -/

theorem beginsNumber_cons_iff {c : Char} {rest : List Char} :
    BeginsNumber (c :: rest) ↔
      (c.isDigit || (c == '.' && rest.head?.any Char.isDigit)) = true := by
  constructor
  · rintro ⟨d, more, hd, htext | htext⟩
    · obtain ⟨rfl, rfl⟩ := List.cons.inj htext
      simp [hd]
    · obtain ⟨rfl, rfl⟩ := List.cons.inj htext
      simp [hd]
  · intro h
    simp only [Bool.or_eq_true, Bool.and_eq_true, beq_iff_eq, Option.any_eq_true] at h
    rcases h with hd | ⟨rfl, d, hhead, hd⟩
    · exact ⟨c, rest, hd, .inl rfl⟩
    · obtain ⟨more, rfl⟩ := List.head?_eq_some_iff.mp hhead
      exact ⟨d, more, hd, .inr rfl⟩

theorem isNameStart_of_lt {c : Char} (h : c.toNat < 65) : Text.isNameStart c = false := by
  have hletter : c.isAlpha = false := by
    change (decide (65 ≤ c.toNat ∧ c.toNat ≤ 90) ||
      decide (97 ≤ c.toNat) && decide (c.toNat ≤ 122)) = false
    rw [decide_eq_false (by omega), decide_eq_false (p := 97 ≤ c.toNat) (by omega)]
    rfl
  have hline : (c == '_') = false := by
    rw [beq_eq_false_iff_ne]
    rintro rfl
    contradiction
  have hplain : ¬ 0x80 ≤ c.toNat := by omega
  simp [Text.isNameStart, hletter, hline, hplain]

theorem nameLength_of_lt {c : Char} (rest : List Char) (h : c.toNat < 65) :
    nameLength (c :: rest) = 0 := by
  have hescape : c ≠ '\\' := by
    rintro rfl
    contradiction
  simp [nameLength, nameCharLength, hescape, isNameStart_of_lt h]

theorem plainLexeme_of_beginsNumber {text : List Char} (h : BeginsNumber text) :
    plainLexeme text = numberLength text := by
  cases text with
  | nil => simp [BeginsNumber] at h
  | cons c rest =>
      rw [beginsNumber_cons_iff] at h
      have hc : c.isDigit = true ∨ c = '.' := by
        simp only [Bool.or_eq_true, Bool.and_eq_true, beq_iff_eq] at h
        exact h.imp_right And.left
      have hlt : c.toNat < 65 := by
        rcases hc with hd | rfl
        · exact (Char.isDigit_iff_toNat.mp hd).2.trans_lt (by decide)
        · decide
      have hmarks : c ≠ '@' ∧ c ≠ '\x22' ∧ c ≠ '\x27' := by
        refine ⟨?_, ?_, ?_⟩ <;> (rintro rfl; revert hc; decide)
      simp [plainLexeme, nameLength_of_lt rest hlt, hmarks, h]

theorem closedString_fst {kind : TokenKind} (hkind : kind ∉ [TokenKind.integer, .real])
    (opening : Nat) (rest : Option Nat) (text : List Char) :
    (closedString kind opening rest text).1 ∉ [TokenKind.integer, .real] := by
  cases rest with
  | none => simp [closedString]
  | some n => exact hkind

theorem plainLexeme_of_not_beginsNumber {text : List Char} (h : ¬ BeginsNumber text) :
    (plainLexeme text).1 ∉ [TokenKind.integer, .real] := by
  cases text with
  | nil => decide
  | cons c rest =>
      rw [beginsNumber_cons_iff] at h
      rw [plainLexeme, if_neg h]
      split
      · simp
      split
      · simp
      split
      · exact closedString_fst (by decide) _ _ _
      split
      · rw [stringLength]
        split <;> exact closedString_fst (by decide) _ _ _
      split
      · split <;> simp
      · split <;> simp

theorem IsLooseDecimal.beginsNumber {digits : List Char} (h : IsLooseDecimal digits)
    (rest : List Char) : BeginsNumber (digits ++ rest) := by
  obtain ⟨d, more, rfl, hd⟩ := h.exists_cons
  exact ⟨d, more ++ rest, hd, .inl rfl⟩

theorem IsInteger.beginsNumber {suffix : IntegerSuffix} {text : List Char}
    (h : IsInteger suffix text) : BeginsNumber text := by
  obtain ⟨digits, letters, rfl, hdigits, -⟩ := h
  cases hdigits with
  | decimal h => exact h.toIsLooseDecimal.beginsNumber letters
  | based hbase h => exact ⟨'0', _, by decide, .inl rfl⟩

theorem IsReal.beginsNumber {suffix : RealSuffix} {text : List Char} (h : IsReal suffix text) :
    BeginsNumber text := by
  obtain ⟨digits, letters, rfl, ⟨hwhole, hfraction, -⟩, -⟩ := h
  rw [List.append_assoc]
  rcases hwhole with h | ⟨rfl, hne⟩
  · exact h.toIsLooseDecimal.beginsNumber _
  · cases hfraction with
    | none => contradiction
    | point h =>
        obtain ⟨d, more, rfl, hd⟩ := h.toIsLooseDecimal.exists_cons
        exact ⟨d, _, hd, .inr rfl⟩

theorem isNumberToken_plainLexeme {text : List Char}
    (h : (plainLexeme text).1 ∈ [TokenKind.integer, .real]) :
    IsNumberToken (plainLexeme text).1 (text.take (plainLexeme text).2) := by
  have hbegins : BeginsNumber text := by
    by_contra hnot
    exact plainLexeme_of_not_beginsNumber hnot h
  rw [plainLexeme_of_beginsNumber hbegins]
  exact isNumberToken_numberLength hbegins

theorem plainLexeme_eq_integer_iff {text : List Char} :
    plainLexeme text = (.integer, text.length) ↔ ∃ suffix, IsInteger suffix text := by
  constructor
  · intro h
    have htoken := @isNumberToken_plainLexeme text (by simp [h])
    rwa [h, List.take_length] at htoken
  · rintro ⟨suffix, h⟩
    rw [plainLexeme_of_beginsNumber h.beginsNumber, numberLength_of_isInteger h]

/-- The lexer reads as real numbers exactly those that are not written like integers. -/
theorem plainLexeme_eq_real_iff {text : List Char} :
    plainLexeme text = (.real, text.length) ↔
      (∃ suffix, IsReal suffix text) ∧ ∀ suffix, ¬ IsInteger suffix text := by
  constructor
  · intro h
    have htoken := @isNumberToken_plainLexeme text (by simp [h])
    rw [h, List.take_length] at htoken
    refine ⟨htoken, fun suffix hinteger => ?_⟩
    rw [plainLexeme_eq_integer_iff.mpr ⟨suffix, hinteger⟩] at h
    simp at h
  · rintro ⟨⟨suffix, h⟩, hinteger⟩
    rw [plainLexeme_of_beginsNumber h.beginsNumber, numberLength_of_isReal h hinteger]

example : plainLexeme "0xBad_FuL;".toList = (.integer, 9) := by decide

end CSharpAudit.CSharp
