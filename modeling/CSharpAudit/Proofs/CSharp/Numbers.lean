import CSharpAudit.CSharp.Directive
import CSharpAudit.Proofs.Text.Case
import Mathlib.Data.List.DropRight

/-!
How numbers are written, and how the lexer reads the parts of them. A number is
digits and a suffix behind them. Low lines may part the digits; an integer may be
written in another base behind a mark, and a real number goes on with a fraction and
an exponent. There are two facts about each part: what is read as one is one, and one
is read up to its end if what follows cannot go on with it.
-/

namespace CSharpAudit.CSharp

/-! How numbers are written. -/

def isBinaryDigit (c : Char) : Bool :=
  c == '0' || c == '1'

/-- Digits with low lines before and between them. -/
structure IsDigits (isDigit : Char → Bool) (text : List Char) : Prop where
  chars : ∀ c ∈ text, isDigit c = true ∨ c = '_'
  last : ∃ d ∈ text.getLast?, isDigit d = true

/-- Decimal digits with low lines between and behind them. -/
structure IsLooseDecimal (text : List Char) : Prop where
  chars : ∀ c ∈ text, c.isDigit = true ∨ c = '_'
  first : ∃ d ∈ text.head?, d.isDigit = true

/-- Decimal digits with low lines between them. -/
structure IsDecimal (text : List Char) : Prop extends
  IsDigits Char.isDigit text, IsLooseDecimal text

/-- The letters that mark a base, each with the digits of the base. -/
def bases : List (Char × (Char → Bool)) :=
  [('x', isHexDigit), ('X', isHexDigit), ('b', isBinaryDigit), ('B', isBinaryDigit)]

/-- The digits of an integer: decimal, or of another base behind a zero and its mark. -/
inductive IsIntegerDigits : List Char → Prop
  | decimal {digits : List Char} (h : IsDecimal digits) : IsIntegerDigits digits
  | based {base : Char × (Char → Bool)} {digits : List Char} (hbase : base ∈ bases)
      (h : IsDigits base.2 digits) : IsIntegerDigits ('0' :: base.1 :: digits)

/-- A point and the digits behind it, or nothing. -/
inductive IsFraction : List Char → Prop
  | none : IsFraction []
  | point {digits : List Char} (h : IsDecimal digits) : IsFraction ('.' :: digits)

/-- A power of ten, or nothing. Low lines may end its digits. -/
inductive IsExponent : List Char → Prop
  | none : IsExponent []
  | power {e : Char} {sign digits : List Char} (he : e = 'e' ∨ e = 'E')
      (hsign : sign = [] ∨ sign = ['+'] ∨ sign = ['-']) (h : IsLooseDecimal digits) :
      IsExponent (e :: (sign ++ digits))

/-- The digits of a real number. They may begin with the point. -/
inductive IsRealDigits : List Char → Prop
  | parts {whole fraction exponent : List Char}
      (hwhole : IsDecimal whole ∨ whole = [] ∧ fraction ≠ []) (hfraction : IsFraction fraction)
      (hexponent : IsExponent exponent) : IsRealDigits (whole ++ (fraction ++ exponent))

inductive IntegerSuffix
  | none
  | unsigned
  | long
  | unsignedLong
  | longUnsigned

def IntegerSuffix.word : IntegerSuffix → List Char
  | none => []
  | unsigned => ['u']
  | long => ['l']
  | unsignedLong => ['u', 'l']
  | longUnsigned => ['l', 'u']

inductive RealSuffix
  | none
  | float
  | double
  | decimal

def RealSuffix.word : RealSuffix → List Char
  | none => []
  | float => ['f']
  | double => ['d']
  | decimal => ['m']

def IsNumber (Digits : List Char → Prop) (suffix text : List Char) : Prop :=
  ∃ digits letters, text = digits ++ letters ∧ Digits digits ∧ Text.SpelledAs suffix letters

def IsInteger (suffix : IntegerSuffix) (text : List Char) : Prop :=
  IsNumber IsIntegerDigits suffix.word text

def IsReal (suffix : RealSuffix) (text : List Char) : Prop :=
  IsNumber IsRealDigits suffix.word text

/-! What stands first behind a part. -/

/-- The first character of a text, if it has one, is of some kind. -/
def Starts (P : Char → Prop) (text : List Char) : Prop :=
  ∀ c ∈ text.head?, P c

theorem Starts.nil {P : Char → Prop} : Starts P [] := by
  simp [Starts]

theorem Starts.of_forall_mem {P : Char → Prop} {text : List Char} (h : ∀ c ∈ text, P c) :
    Starts P text :=
  fun c hc => h c (List.mem_of_mem_head? hc)

theorem Starts.append {P : Char → Prop} {a b : List Char} (ha : Starts P a) (hb : Starts P b) :
    Starts P (a ++ b) := by
  cases a with
  | nil => exact hb
  | cons c rest => exact ha

theorem Starts.imp {P Q : Char → Prop} {text : List Char} (h : Starts P text)
    (himp : ∀ c, P c → Q c) : Starts Q text :=
  fun c hc => himp c (h c hc)

theorem Starts.of_all {P : Char → Prop} [DecidablePred P] {chars text : List Char}
    (h : Starts (· ∈ chars) text) (hall : chars.all (fun c => decide (P c)) = true) :
    Starts P text :=
  h.imp fun c hc => of_decide_eq_true (List.all_eq_true.mp hall c hc)

theorem takeWhile_append_of_starts {p : Char → Bool} {a rest : List Char}
    (ha : ∀ c ∈ a, p c = true) (hrest : Starts (fun c => p c = false) rest) :
    (a ++ rest).takeWhile p = a := by
  rw [List.takeWhile_append_of_pos ha]
  cases rest with
  | nil => simp
  | cons c rest => simp [hrest c rfl]

/-! Digits. -/

theorem take_digitsLength (isDigit : Char → Bool) (text : List Char) :
    text.take (digitsLength isDigit text) =
      (text.takeWhile fun c => isDigit c || c == '_').rdropWhile (· == '_') := by
  have hprefix := (List.rdropWhile_prefix (· == '_')
    (text.takeWhile fun c => isDigit c || c == '_')).trans (List.takeWhile_prefix _)
  rw [List.prefix_iff_eq_take.mp hprefix, List.rdropWhile, List.length_reverse]
  rfl

theorem isDigits_take {isDigit : Char → Bool} {text : List Char}
    (h : digitsLength isDigit text ≠ 0) :
    IsDigits isDigit (text.take (digitsLength isDigit text)) := by
  have hne : text.take (digitsLength isDigit text) ≠ [] := by
    rw [Ne, List.take_eq_nil_iff, not_or]
    refine ⟨h, ?_⟩
    rintro rfl
    exact h rfl
  have hlast := List.rdropWhile_last_not (· == '_')
    (text.takeWhile fun c => isDigit c || c == '_') (take_digitsLength isDigit text ▸ hne)
  have hchars : ∀ c ∈ text.take (digitsLength isDigit text), isDigit c = true ∨ c = '_' := by
    intro c hc
    rw [take_digitsLength] at hc
    simpa using List.mem_takeWhile_imp ((List.rdropWhile_prefix _ _).mem hc)
  refine ⟨hchars, _, List.getLast?_eq_getLast_of_ne_nil hne, ?_⟩
  refine (hchars _ (List.getLast_mem hne)).resolve_right ?_
  simpa [take_digitsLength] using hlast

theorem digitsLength_append {isDigit : Char → Bool} {digits rest : List Char}
    (h : IsDigits isDigit digits) (hlow : isDigit '_' = false)
    (hrest : Starts (fun c => (isDigit c || c == '_') = false) rest) :
    digitsLength isDigit (digits ++ rest) = digits.length := by
  obtain ⟨d, hlast, hd⟩ := h.last
  obtain ⟨init, rfl⟩ : ∃ init, digits = init ++ [d] := List.getLast?_eq_some_iff.mp hlast
  have hne : (d == '_') = false := by
    rw [beq_eq_false_iff_ne]
    rintro rfl
    rw [hlow] at hd
    contradiction
  -- the last digit stops the way back over low lines
  rw [digitsLength, takeWhile_append_of_starts (by simpa using h.chars) hrest]
  simp [hne]

theorem digitsLength_ne_zero {isDigit : Char → Bool} {d : Char} (rest : List Char)
    (hd : isDigit d = true) (hlow : isDigit '_' = false) :
    digitsLength isDigit (d :: rest) ≠ 0 := by
  intro hzero
  have hnil := take_digitsLength isDigit (d :: rest)
  rw [hzero, List.take_zero, eq_comm, List.rdropWhile_eq_nil_iff] at hnil
  have hlast : (d == '_') = true := hnil d (by simp [hd])
  rw [beq_iff_eq.mp hlast, hlow] at hd
  contradiction

theorem isDecimal_take {d : Char} (rest : List Char) (hd : d.isDigit = true) :
    IsDecimal ((d :: rest).take (digitsLength Char.isDigit (d :: rest))) := by
  have hne := digitsLength_ne_zero rest hd (by decide)
  refine ⟨isDigits_take hne, d, ?_, hd⟩
  rw [List.head?_take, if_neg hne, List.head?_cons, Option.mem_some]

theorem IsLooseDecimal.exists_cons {digits : List Char} (h : IsLooseDecimal digits) :
    ∃ d rest, digits = d :: rest ∧ d.isDigit = true := by
  obtain ⟨d, hhead, hd⟩ := h.first
  obtain ⟨rest, rfl⟩ := List.head?_eq_some_iff.mp hhead
  exact ⟨d, rest, rfl, hd⟩

/-! Fractions and exponents. -/

def suffixLetters : List Char :=
  ['u', 'U', 'l', 'L', 'f', 'F', 'd', 'D', 'm', 'M']

theorem isFraction_take (text : List Char) : IsFraction (text.take (fractionLength text)) := by
  fun_cases fractionLength text with
  | case1 d rest hd =>
      rw [Nat.add_comm, List.take_succ_cons]
      exact .point (isDecimal_take rest hd)
  | case2 => exact .none
  | case3 => exact .none

theorem fractionLength_append {fraction rest : List Char} (h : IsFraction fraction)
    (hrest : Starts (· ∈ ['e', 'E'] ++ suffixLetters) rest) :
    fractionLength (fraction ++ rest) = fraction.length := by
  cases h with
  | none =>
      cases rest with
      | nil => rfl
      | cons c rest =>
          have hc : c ≠ '.' := by
            rintro rfl
            exact absurd (hrest '.' rfl) (by decide)
          simp [fractionLength, hc]
  | point h =>
      obtain ⟨d, more, rfl, hd⟩ := h.toIsLooseDecimal.exists_cons
      have hdigits := digitsLength_append h.toIsDigits (by decide) (hrest.of_all (by decide))
      simp only [List.cons_append, fractionLength, hd, if_true] at hdigits ⊢
      rw [hdigits, List.length_cons, List.length_cons, List.length_cons]
      omega

theorem isLooseDecimal_take {text : List Char} (h : exponentDigits text ≠ 0) :
    IsLooseDecimal (text.take (exponentDigits text)) := by
  cases text with
  | nil => exact absurd rfl h
  | cons d rest =>
      rw [exponentDigits] at h ⊢
      split at h
      · next hd =>
        have htake : rest.take (rest.takeWhile fun c => c.isDigit || c == '_').length =
            rest.takeWhile fun c => c.isDigit || c == '_' :=
          (List.prefix_iff_eq_take.mp (List.takeWhile_prefix _)).symm
        rw [if_pos hd, Nat.add_comm, List.take_succ_cons, htake]
        refine ⟨List.forall_mem_cons.mpr ⟨.inl hd, fun c hc => ?_⟩, d, rfl, hd⟩
        simpa using List.mem_takeWhile_imp hc
      · exact absurd rfl h

theorem exponentDigits_append {digits rest : List Char} (h : IsLooseDecimal digits)
    (hrest : Starts (· ∈ suffixLetters) rest) :
    exponentDigits (digits ++ rest) = digits.length := by
  obtain ⟨d, more, rfl, hd⟩ := h.exists_cons
  have hmore : ∀ c ∈ more, (c.isDigit || c == '_') = true := by
    simpa using fun c hc => h.chars c (List.mem_cons_of_mem d hc)
  rw [List.cons_append, exponentDigits, if_pos hd,
    takeWhile_append_of_starts hmore (hrest.of_all (by decide)), List.length_cons, Nat.add_comm]

theorem isExponent_take (text : List Char) : IsExponent (text.take (exponentLength text)) := by
  fun_cases exponentLength text with
  | case1 e s rest sign digits h =>
      simp only [Bool.and_eq_true, Bool.or_eq_true, beq_iff_eq, decide_eq_true_eq] at h
      rw [Nat.add_assoc, Nat.add_comm 1, List.take_succ_cons, List.take_add]
      refine .power h.1 ?_ (isLooseDecimal_take h.2.ne')
      by_cases hs : s = '+' ∨ s = '-'
      · rcases hs with rfl | rfl <;> simp [sign]
      · simp [sign, hs]
  | case2 => exact .none
  | case3 => exact .none

/-- A sign is told from the digits behind it. -/
theorem exponentLength_power {e d : Char} {sign : List Char} (rest : List Char)
    (he : e = 'e' ∨ e = 'E') (hsign : sign = [] ∨ sign = ['+'] ∨ sign = ['-'])
    (hd : d.isDigit = true) :
    exponentLength (e :: (sign ++ d :: rest)) =
      1 + sign.length + exponentDigits (d :: rest) := by
  have hmark : (e == 'e' || e == 'E') = true := by simpa using he
  have hdigits : exponentDigits (d :: rest) ≠ 0 := by
    rw [exponentDigits, if_pos hd]
    omega
  rcases hsign with rfl | rfl | rfl
  · have hd' : d ≠ '+' ∧ d ≠ '-' := by
      constructor <;> rintro rfl <;> contradiction
    simp [exponentLength, hmark, hd', Nat.pos_iff_ne_zero, hdigits]
  · simp [exponentLength, hmark, Nat.pos_iff_ne_zero, hdigits]
  · simp [exponentLength, hmark, Nat.pos_iff_ne_zero, hdigits]

theorem exponentLength_append {exponent rest : List Char} (h : IsExponent exponent)
    (hrest : Starts (· ∈ suffixLetters) rest) :
    exponentLength (exponent ++ rest) = exponent.length := by
  cases h with
  | none =>
      match rest, hrest with
      | [], _ => rfl
      | [c], _ => rfl
      | c :: s :: rest, hrest =>
          have hc : ¬ (c = 'e' ∨ c = 'E') := by
            rintro (rfl | rfl) <;> exact absurd (hrest _ rfl) (by decide)
          simp [exponentLength, hc]
  | power he hsign h =>
      have hdigits := exponentDigits_append h hrest
      obtain ⟨d, more, rfl, hd⟩ := h.exists_cons
      rw [List.cons_append] at hdigits
      rw [List.cons_append, List.append_assoc, List.cons_append,
        exponentLength_power (more ++ rest) he hsign hd, hdigits]
      simp only [List.length_cons, List.length_append]
      omega

/-! Suffixes. -/

theorem IntegerSuffix.isLower_word (suffix : IntegerSuffix) :
    ∀ small ∈ suffix.word, small.isLower = true := by
  cases suffix <;> simp [word]

theorem RealSuffix.isLower_word (suffix : RealSuffix) :
    ∀ small ∈ suffix.word, small.isLower = true := by
  cases suffix <;> simp [word]

theorem IntegerSuffix.forall_mem {suffix : IntegerSuffix} {letters : List Char}
    (h : Text.SpelledAs suffix.word letters) : ∀ c ∈ letters, c ∈ ['u', 'U', 'l', 'L'] :=
  h.forall_mem (by cases suffix <;> simp [word])

theorem RealSuffix.forall_mem {suffix : RealSuffix} {letters : List Char}
    (h : Text.SpelledAs suffix.word letters) :
    ∀ c ∈ letters, c ∈ ['f', 'F', 'd', 'D', 'm', 'M'] :=
  h.forall_mem (by cases suffix <;> simp [word])

theorem integerSuffix_eq {suffix : IntegerSuffix} {letters : List Char}
    (h : Text.SpelledAs suffix.word letters) :
    integerSuffix letters = letters.length ∧ realSuffix letters = 0 := by
  rw [Text.spelledAs_iff suffix.isLower_word, Text.lowerPlain] at h
  cases suffix with
  | none =>
      obtain rfl := List.map_eq_nil_iff.mp h
      exact ⟨rfl, rfl⟩
  | unsigned | long =>
      obtain ⟨a, rfl, ha⟩ := List.map_eq_singleton_iff.mp h
      simp [integerSuffix, realSuffix, ha]
  | unsignedLong | longUnsigned =>
      obtain ⟨a, rest, rfl, ha, hrest⟩ := List.map_eq_cons_iff.mp h
      obtain ⟨b, rfl, hb⟩ := List.map_eq_singleton_iff.mp hrest
      simp [integerSuffix, realSuffix, ha, hb]

theorem realSuffix_eq {suffix : RealSuffix} {letters : List Char}
    (h : Text.SpelledAs suffix.word letters) : realSuffix letters = letters.length := by
  rw [Text.spelledAs_iff suffix.isLower_word, Text.lowerPlain] at h
  cases suffix with
  | none =>
      obtain rfl := List.map_eq_nil_iff.mp h
      rfl
  | float | double | decimal =>
      obtain ⟨a, rfl, ha⟩ := List.map_eq_singleton_iff.mp h
      simp [realSuffix, ha]

theorem spelledAs_take_integerSuffix (text : List Char) :
    ∃ suffix : IntegerSuffix, Text.SpelledAs suffix.word (text.take (integerSuffix text)) := by
  simp only [Text.spelledAs_iff (IntegerSuffix.isLower_word _)]
  fun_cases integerSuffix text with
  | case1 a b rest ha hb =>
      exact ⟨.unsignedLong, by simp [Text.lowerPlain, ha, hb, IntegerSuffix.word]⟩
  | case2 a b rest ha hb =>
      exact ⟨.longUnsigned, by simp [Text.lowerPlain, ha, hb, IntegerSuffix.word]⟩
  | case3 a b rest ha => exact ⟨.unsigned, by simp [Text.lowerPlain, ha, IntegerSuffix.word]⟩
  | case4 a b rest ha => exact ⟨.long, by simp [Text.lowerPlain, ha, IntegerSuffix.word]⟩
  | case6 a ha =>
      simp only [Bool.or_eq_true, beq_iff_eq] at ha
      rcases ha with ha | ha
      · exact ⟨.unsigned, by simp [Text.lowerPlain, ha, IntegerSuffix.word]⟩
      · exact ⟨.long, by simp [Text.lowerPlain, ha, IntegerSuffix.word]⟩
  | case5 | case7 | case8 => exact ⟨.none, rfl⟩

theorem spelledAs_take_realSuffix (text : List Char) :
    ∃ suffix : RealSuffix, Text.SpelledAs suffix.word (text.take (realSuffix text)) := by
  simp only [Text.spelledAs_iff (RealSuffix.isLower_word _)]
  fun_cases realSuffix text with
  | case1 c rest hc =>
      simp only [List.contains_iff_mem, List.mem_cons, List.not_mem_nil, or_false] at hc
      rcases hc with hc | hc | hc
      · exact ⟨.float, by simp [Text.lowerPlain, hc, RealSuffix.word]⟩
      · exact ⟨.double, by simp [Text.lowerPlain, hc, RealSuffix.word]⟩
      · exact ⟨.decimal, by simp [Text.lowerPlain, hc, RealSuffix.word]⟩
  | case2 | case3 => exact ⟨.none, rfl⟩

end CSharpAudit.CSharp
