import CSharpAudit.Proofs.CSharp.Numbers
import CSharpAudit.Tree.InferredType

/-!
Types of number literals. The type is told by how the text as a whole ends, and it
is the one that the suffix names: no digit is a letter of a suffix of its own kind of
literal. Hexadecimal digits hold the letters of two suffixes, but these are suffixes
of real numbers, which have no such digits.
-/

namespace CSharpAudit

namespace CSharp

def IntegerSuffix.type : IntegerSuffix → String
  | none => "int"
  | unsigned => "uint"
  | long => "long"
  | unsignedLong => "ulong"
  | longUnsigned => "ulong"

def RealSuffix.type : RealSuffix → String
  | none => "double"
  | float => "float"
  | double => "double"
  | decimal => "decimal"

/-! The last digit. -/

def Ends (P : Char → Prop) (text : List Char) : Prop :=
  ∃ d ∈ text.getLast?, P d

theorem Ends.append {P : Char → Prop} {text : List Char} (h : Ends P text) (before : List Char) :
    Ends P (before ++ text) := by
  obtain ⟨d, hlast, hd⟩ := h
  refine ⟨d, ?_, hd⟩
  rw [List.getLast?_append, Option.mem_def.mp hlast, Option.some_or, Option.mem_some]

theorem Ends.imp {P Q : Char → Prop} {text : List Char} (h : Ends P text)
    (himp : ∀ c, P c → Q c) : Ends Q text := by
  obtain ⟨d, hlast, hd⟩ := h
  exact ⟨d, hlast, himp d hd⟩

theorem IsLooseDecimal.ends {digits : List Char} (h : IsLooseDecimal digits) :
    Ends (fun d => d.isDigit = true ∨ d = '_') digits := by
  obtain ⟨d, rest, rfl, -⟩ := h.exists_cons
  exact ⟨_, List.getLast?_eq_getLast_of_ne_nil (List.cons_ne_nil d rest),
    h.chars _ (List.getLast_mem _)⟩

theorem isHexDigit_of_isBinaryDigit (d : Char) (h : isBinaryDigit d = true) :
    isHexDigit d = true := by
  simp only [isBinaryDigit, Bool.or_eq_true, beq_iff_eq] at h
  rcases h with rfl | rfl <;> decide

theorem IsIntegerDigits.ends {digits : List Char} (h : IsIntegerDigits digits) :
    Ends (fun d => isHexDigit d = true) digits := by
  cases h with
  | decimal h => exact Ends.imp h.last fun d hd => by simp [isHexDigit, hd]
  | @based base digits hbase h =>
      have hdigit : ∀ d, base.2 d = true → isHexDigit d = true := by
        simp only [bases, List.mem_cons, List.not_mem_nil, or_false] at hbase
        rcases hbase with rfl | rfl | rfl | rfl
        · exact fun _ hd => hd
        · exact fun _ hd => hd
        · exact isHexDigit_of_isBinaryDigit
        · exact isHexDigit_of_isBinaryDigit
      exact (Ends.imp h.last hdigit).append ['0', base.1]

theorem IsRealDigits.ends {digits : List Char} (h : IsRealDigits digits) :
    Ends (fun d => d.isDigit = true ∨ d = '_') digits := by
  obtain ⟨hwhole, hfraction, hexponent⟩ := h
  cases hexponent with
  | power _ _ h => exact (((h.ends.append _).append [_]).append _).append _
  | none =>
      rw [List.append_nil]
      cases hfraction with
      | point h => exact (h.toIsLooseDecimal.ends.append ['.']).append _
      | none =>
          rw [List.append_nil]
          exact (hwhole.resolve_right fun hempty => hempty.2 rfl).toIsLooseDecimal.ends

end CSharp

open CSharp

/-! How a text ends. -/

/-- What is looked at to tell a type: the suffix, and before it the last digit. -/
theorem reverse_lowerPlain_append {digits letters word : List Char} {P : Char → Prop}
    (hdigits : Ends P digits) (hword : ∀ small ∈ word, small.isLower = true)
    (hletters : Text.SpelledAs word letters) :
    ∃ d rest, P d ∧ (Text.lowerPlain (digits ++ letters)).reverse =
      word.reverse ++ d.toLower :: rest := by
  obtain ⟨d, hlast, hd⟩ := hdigits
  obtain ⟨init, rfl⟩ := List.getLast?_eq_some_iff.mp hlast
  rw [Text.spelledAs_iff hword, Text.lowerPlain] at hletters
  refine ⟨d, (Text.lowerPlain init).reverse, hd, ?_⟩
  simp [Text.lowerPlain, hletters]

/-- The digits of an integer end with no letter of its suffixes, so a longer suffix than
the one that stands there is never seen. -/
theorem integerType_eq_type {suffix : IntegerSuffix} {literal : String}
    {digits letters : List Char} (htext : literal.toList = digits ++ letters)
    (hdigits : Ends (fun d => isHexDigit d = true ∨ d = '_') digits)
    (hletters : Text.SpelledAs suffix.word letters) : integerType literal = suffix.type := by
  obtain ⟨d, rest, hd, hending⟩ :=
    reverse_lowerPlain_append hdigits suffix.isLower_word hletters
  have hu : 'u' ≠ d.toLower :=
    Text.ne_toLower (P := fun d => isHexDigit d = true ∨ d = '_') hd (by decide) (by decide)
  have hl : 'l' ≠ d.toLower :=
    Text.ne_toLower (P := fun d => isHexDigit d = true ∨ d = '_') hd (by decide) (by decide)
  rw [integerType, htext, hending]
  cases suffix <;> simp [IntegerSuffix.word, IntegerSuffix.type, hu, hl]

theorem realType_eq_type {suffix : RealSuffix} {literal : String} {digits letters : List Char}
    (htext : literal.toList = digits ++ letters)
    (hdigits : Ends (fun d => d.isDigit = true ∨ d = '_') digits)
    (hletters : Text.SpelledAs suffix.word letters) : realType literal = suffix.type := by
  obtain ⟨d, rest, hd, hending⟩ :=
    reverse_lowerPlain_append hdigits suffix.isLower_word hletters
  have hf : 'f' ≠ d.toLower :=
    Text.ne_toLower (P := fun d => d.isDigit = true ∨ d = '_') hd (by decide) (by decide)
  have hm : 'm' ≠ d.toLower :=
    Text.ne_toLower (P := fun d => d.isDigit = true ∨ d = '_') hd (by decide) (by decide)
  rw [realType, htext, hending]
  cases suffix <;> simp [RealSuffix.word, RealSuffix.type, hf, hm]

theorem integerType_of_isInteger {suffix : IntegerSuffix} {literal : String}
    (h : IsInteger suffix literal.toList) : integerType literal = suffix.type := by
  obtain ⟨digits, letters, htext, hdigits, hletters⟩ := h
  exact integerType_eq_type htext (hdigits.ends.imp fun _ => .inl) hletters

theorem realType_of_isReal {suffix : RealSuffix} {literal : String}
    (h : IsReal suffix literal.toList) : realType literal = suffix.type := by
  obtain ⟨digits, letters, htext, hdigits, hletters⟩ := h
  exact realType_eq_type htext hdigits.ends hletters

theorem integerType_push {digit : Char} (h : isHexDigit digit = true ∨ digit = '_')
    (text : String) : integerType (text.push digit) = "int" :=
  @integerType_eq_type .none _ (text.toList ++ [digit]) [] (by simp)
    (Ends.append ⟨digit, rfl, h⟩ text.toList) .nil

theorem realType_push {digit : Char} (h : digit.isDigit = true ∨ digit = '_') (text : String) :
    realType (text.push digit) = "double" :=
  @realType_eq_type .none _ (text.toList ++ [digit]) [] (by simp)
    (Ends.append ⟨digit, rfl, h⟩ text.toList) .nil

/-- A number literal has the type that its suffix names. A digit is never taken for a
suffix, whatever stands before it. -/
theorem literals_typed_by_suffix :
    (∀ (suffix : IntegerSuffix) (literal : String), IsInteger suffix literal.toList →
      integerType literal = suffix.type) ∧
    (∀ (suffix : RealSuffix) (literal : String), IsReal suffix literal.toList →
      realType literal = suffix.type) ∧
    (∀ (text : String) (digit : Char),
      (isHexDigit digit = true ∨ digit = '_' → integerType (text.push digit) = "int") ∧
      (digit.isDigit = true ∨ digit = '_' → realType (text.push digit) = "double")) := by
  refine ⟨fun _ _ => integerType_of_isInteger, fun _ _ => realType_of_isReal, ?_⟩
  exact fun text digit => ⟨fun h => integerType_push h text, fun h => realType_push h text⟩

theorem isInteger_hexadecimal : IsInteger .unsignedLong "0xBad_FuL".toList :=
  ⟨"0xBad_F".toList, "uL".toList, rfl,
    @IsIntegerDigits.based ('x', isHexDigit) "Bad_F".toList List.mem_cons_self
      ⟨by simp [isHexDigit], 'F', rfl, rfl⟩,
    .cons (.inl rfl) (.cons (.inr rfl) .nil)⟩

theorem isReal_pointFirst : IsReal .decimal ".5_0E-3M".toList :=
  ⟨".5_0E-3".toList, "M".toList, rfl,
    @IsRealDigits.parts [] ".5_0".toList "E-3".toList (.inr ⟨rfl, by decide⟩)
      (@IsFraction.point "5_0".toList ⟨⟨by simp, '0', rfl, rfl⟩, '5', rfl, rfl⟩)
      (@IsExponent.power 'E' ['-'] ['3'] (.inr rfl) (.inr (.inr rfl)) ⟨by simp, '3', rfl, rfl⟩),
    .cons (.inr rfl) .nil⟩

/-- The last digit of the first number is a letter that would make a real number a
float. -/
theorem literals_typed_hexadecimal :
    (IsInteger .unsignedLong "0xBad_FuL".toList ∧ integerType "0xBad_FuL" = "ulong") ∧
    (isHexDigit 'F' = true ∧ integerType "0xBad_F" = "int") ∧
    (IsReal .decimal ".5_0E-3M".toList ∧ realType ".5_0E-3M" = "decimal") := by
  obtain ⟨hinteger, hreal, hdigit⟩ := literals_typed_by_suffix
  refine ⟨⟨isInteger_hexadecimal, ?_⟩, ⟨rfl, ?_⟩, ⟨isReal_pointFirst, ?_⟩⟩
  · exact hinteger _ _ isInteger_hexadecimal
  · exact (hdigit "0xBad_" 'F').1 (.inl rfl)
  · exact hreal _ _ isReal_pointFirst

end CSharpAudit
