import CSharpAudit.Proofs.Concrete.Damage
import Mathlib.Data.List.DropRight

/-!
What a syntax error quotes. The quote is the start of the first line of what is left
of the unreadable text once blanks are taken off at both ends. Every line break is
blank, so that first line is not empty, and nothing is quoted only if the text is
blank as a whole.
-/

namespace CSharpAudit

namespace Text

theorem trimEnd_prefix (text : List Char) : trimEnd text <+: text :=
  List.rdropWhile_prefix isBlank text

theorem isBlank_of_head?_trimStart {text : List Char} {c : Char}
    (h : (trimStart text).head? = some c) : isBlank c = false := by
  have hnot := List.head?_dropWhile_not isBlank text
  rw [← trimStart, h] at hnot
  simpa using hnot

theorem trim_eq_nil_iff {text : List Char} :
    trimEnd (trimStart text) = [] ↔ ∀ c ∈ text, isBlank c = true := by
  have hend : trimEnd (trimStart text) = [] ↔ ∀ c ∈ trimStart text, isBlank c = true :=
    List.rdropWhile_eq_nil_iff
  have hstart : trimStart text = [] ↔ ∀ c ∈ text, isBlank c = true := List.dropWhile_eq_nil_iff
  rw [hend, ← hstart]
  constructor
  · intro hblank
    cases htext : trimStart text with
    | nil => rfl
    | cons c rest =>
        have hhead : (trimStart text).head? = some c := by rw [htext, List.head?_cons]
        have hc : isBlank c = true := hblank c (htext ▸ List.mem_cons_self)
        rw [isBlank_of_head?_trimStart hhead] at hc
        contradiction
  · intro hnil c hc
    rw [hnil] at hc
    contradiction

theorem isBlank_of_head?_trim {text : List Char} {c : Char}
    (h : (trimEnd (trimStart text)).head? = some c) : isBlank c = false := by
  obtain ⟨blanks, hblanks⟩ := trimEnd_prefix (trimStart text)
  apply isBlank_of_head?_trimStart
  rw [← hblanks, List.head?_append, h, Option.some_or]

theorem exists_visible {text : List Char} (h : ¬ ∀ c ∈ text, isBlank c = true) :
    ∃ c, (trimEnd (trimStart text)).head? = some c ∧ isBlank c = false ∧ isLineBreak c = false := by
  have hne : trimEnd (trimStart text) ≠ [] := fun hnil => h (trim_eq_nil_iff.mp hnil)
  obtain ⟨c, rest, htrimmed⟩ := List.exists_cons_of_ne_nil hne
  have hhead : (trimEnd (trimStart text)).head? = some c := by rw [htrimmed, List.head?_cons]
  have hblank := isBlank_of_head?_trim hhead
  refine ⟨c, hhead, hblank, ?_⟩
  by_contra hbreak
  rw [Bool.not_eq_false] at hbreak
  rw [isBlank_of_isLineBreak c hbreak] at hblank
  contradiction

theorem head?_splitLines {text : List Char} (h : text ≠ []) :
    (splitLines text).head? = some (text.takeWhile fun c => !isLineBreak c) := by
  fun_induction splitLines text with
  | case1 => contradiction
  | case2 rest => rfl
  | case3 c rest hcrlf hbreak => simp [hbreak]
  | case4 c rest hcrlf hbreak hnil =>
      obtain rfl : rest = [] := by
        by_contra hne
        exact splitLines_ne_nil hne hnil
      simp [hbreak]
  | case5 c rest hcrlf hbreak line more hlines ih =>
      have hne : rest ≠ [] := by
        rintro rfl
        contradiction
      have hline := ih hne
      rw [hlines, List.head?_cons, Option.some.injEq] at hline
      rw [List.head?_cons, hline, List.takeWhile_cons_of_pos (by simpa using hbreak)]

end Text

namespace Concrete

/-- The start of the first line that a text shows: it starts with a visible character,
holds no line break, and is cut short only at its full length, at a line break or at
the end of what the text shows. -/
structure IsExcerpt (quote text : List Char) : Prop where
  length_le : quote.length ≤ 40
  visible : ∃ c, quote.head? = some c ∧ Text.isBlank c = false
  oneLine : ∀ c ∈ quote, Text.isLineBreak c = false
  isPrefix : quote <+: Text.trimStart text
  complete : quote.length < 40 → ∃ rest, Text.trimEnd (Text.trimStart text) = quote ++ rest ∧
    ∀ c, rest.head? = some c → Text.isLineBreak c = true

theorem excerpt?_of_blank {text : String} (h : ∀ c ∈ text.toList, Text.isBlank c = true) :
    excerpt? text = none := by
  rw [excerpt?, dif_pos (Text.trim_eq_nil_iff.mpr h)]

theorem excerpt?_eq {text : String} {c : Char}
    (hc : (Text.trimEnd (Text.trimStart text.toList)).head? = some c)
    (hbreak : Text.isLineBreak c = false) :
    excerpt? text = some (String.ofList
      (((Text.trimEnd (Text.trimStart text.toList)).takeWhile fun d => !Text.isLineBreak d).take
        excerptLength)) := by
  generalize htrimmed : Text.trimEnd (Text.trimStart text.toList) = trimmed at hc
  cases trimmed with
  | nil => contradiction
  | cons d rest =>
      obtain rfl : d = c := Option.some.inj hc
      have hne : Text.trimEnd (Text.trimStart text.toList) ≠ [] := by
        rw [htrimmed]
        exact List.cons_ne_nil d rest
      have hfirst := (List.head_eq_iff_head?_eq_some (Text.splitLines_ne_nil hne)).mpr
        (Text.head?_splitLines hne)
      have hvisible : (d :: rest).takeWhile (fun d => !Text.isLineBreak d) =
          d :: rest.takeWhile fun d => !Text.isLineBreak d :=
        List.takeWhile_cons_of_pos (by rw [hbreak]; rfl)
      rw [excerpt?, dif_neg hne]
      simp only [hfirst]
      rw [htrimmed, hvisible, excerptLength, List.take_succ_cons, List.isEmpty_cons,
        if_neg Bool.false_ne_true]

theorem isExcerpt_firstLine {text : List Char} {c : Char}
    (hc : (Text.trimEnd (Text.trimStart text)).head? = some c) (hblank : Text.isBlank c = false)
    (hbreak : Text.isLineBreak c = false) :
    IsExcerpt (((Text.trimEnd (Text.trimStart text)).takeWhile fun d => !Text.isLineBreak d).take
      excerptLength) text := by
  generalize hline : (Text.trimEnd (Text.trimStart text)).takeWhile (fun d => !Text.isLineBreak d) =
    line
  have hlinePrefix : line <+: Text.trimEnd (Text.trimStart text) := by
    rw [← hline]
    exact List.takeWhile_prefix _
  constructor
  case length_le => exact List.length_take_le _ _
  case visible =>
    refine ⟨c, ?_, hblank⟩
    rw [List.head?_take, if_neg (by decide), ← hline, List.head?_takeWhile, hc]
    simp [hbreak]
  case oneLine =>
    intro d hd
    have hd' := List.mem_of_mem_take hd
    rw [← hline] at hd'
    simpa using List.mem_takeWhile_imp hd'
  case isPrefix =>
    exact (List.take_prefix _ _).trans (hlinePrefix.trans (Text.trimEnd_prefix _))
  case complete =>
    intro hlt
    rw [List.length_take, excerptLength] at hlt
    rw [List.take_of_length_le (by rw [excerptLength]; omega)]
    refine ⟨(Text.trimEnd (Text.trimStart text)).dropWhile fun d => !Text.isLineBreak d, ?_, ?_⟩
    · rw [← hline, List.takeWhile_append_dropWhile]
    · intro d hd
      have hnot := List.head?_dropWhile_not (fun d => !Text.isLineBreak d)
        (Text.trimEnd (Text.trimStart text))
      rw [hd] at hnot
      simpa using hnot

theorem exists_excerpt {text : String} (h : ¬ ∀ c ∈ text.toList, Text.isBlank c = true) :
    ∃ quote, excerpt? text = some (String.ofList quote) ∧ IsExcerpt quote text.toList := by
  obtain ⟨c, hc, hblank, hbreak⟩ := Text.exists_visible h
  exact ⟨_, excerpt?_eq hc hbreak, isExcerpt_firstLine hc hblank hbreak⟩

/-- What is said of unreadable text: it quotes nothing exactly if the text is blank, and
an excerpt of the text otherwise. -/
structure Describes (detail text : String) : Prop where
  nothing_iff : detail = "unexpected input" ↔ ∀ c ∈ text.toList, Text.isBlank c = true
  quotes : (¬ ∀ c ∈ text.toList, Text.isBlank c = true) →
    ∃ quote, detail = "unexpected '" ++ String.ofList quote ++ "'" ∧ IsExcerpt quote text.toList

theorem describes_excerpt (text : String) :
    Describes ((excerpt? text).elim .unexpectedInput .unexpected : SyntaxError.Cause).detail text := by
  by_cases hblank : ∀ c ∈ text.toList, Text.isBlank c = true
  · rw [excerpt?_of_blank hblank]
    exact ⟨iff_of_true rfl hblank, fun hvisible => absurd hblank hvisible⟩
  · obtain ⟨quote, hexcerpt, hquote⟩ := exists_excerpt hblank
    rw [hexcerpt]
    refine ⟨iff_of_false ?_ hblank, fun _ => ⟨quote, rfl, hquote⟩⟩
    intro hnothing
    have hchars := congrArg String.toList hnothing
    simp [SyntaxError.Cause.detail] at hchars

namespace Node

theorem isFault_of_firstFault? {root fault : Node} (h : root.firstFault? = some fault) :
    fault.isFault = true := by
  have hfirst := root.map_pruned_firstFault?
  rw [h, Option.map_some] at hfirst
  rw [← isFault_pruned]
  exact List.find?_some hfirst.symm

theorem detail_faultError {fault : Node} (hpresent : fault.missing = false) (source : Bytes) :
    Describes (fault.faultError source).cause.detail (fault.span.text source) := by
  have hcause : (fault.faultError source).cause =
      (excerpt? (fault.span.text source)).elim .unexpectedInput .unexpected := by
    simp only [faultError, faultCause, hpresent]
    cases excerpt? (fault.span.text source) <;> rfl
  rw [hcause]
  exact describes_excerpt _

end Node

/-- The message about unreadable text, for whatever its span cuts out of the source. It
quotes nothing exactly if the text is blank, and an excerpt of the text otherwise. -/
theorem syntaxError_quotes_excerpt {root fault : Node} (hfault : root.firstFault? = some fault)
    (hpresent : fault.missing = false) (source : Bytes) :
    fault.type = Node.errorType ∧
    ((root.syntaxError source).cause.detail = "unexpected input" ↔
      ∀ c ∈ (fault.span.text source).toList, Text.isBlank c = true) ∧
    ((¬ ∀ c ∈ (fault.span.text source).toList, Text.isBlank c = true) →
      ∃ quote,
        (root.syntaxError source).cause.detail = "unexpected '" ++ String.ofList quote ++ "'" ∧
        IsExcerpt quote (fault.span.text source).toList) := by
  have herror : root.syntaxError source = fault.faultError source := by
    rw [Node.syntaxError, hfault]
  have hdescribes := Node.detail_faultError hpresent source
  rw [herror]
  refine ⟨?_, hdescribes.nothing_iff, hdescribes.quotes⟩
  have hisFault := Node.isFault_of_firstFault? hfault
  simpa [Node.isFault, hpresent] using hisFault

def unreadable (s e : Int) : Node :=
  .branch "ERROR" ⟨s, e⟩ []

theorem firstFault?_unreadable (s e : Int) :
    (unreadable s e).firstFault? = some (unreadable s e) := by
  rw [Node.firstFault?, Node.faultFrom?]
  rfl

/-- An accented letter, a blank, two letters that a vertical tab parts, and a blank. -/
def partedLetters : Bytes :=
  Utf8.encode "é a\x0bb "

/-- From inside the first letter to beyond the end there is something to quote. From the
second character to the third there is not. -/
theorem syntaxError_quotes_partedLetters :
    (∃ quote,
      ((unreadable 1 99).syntaxError partedLetters).cause.detail =
        "unexpected '" ++ String.ofList quote ++ "'" ∧
      IsExcerpt quote "\uFFFD a\x0bb ".toList) ∧
    ((unreadable 2 3).syntaxError partedLetters).cause.detail = "unexpected input" := by
  constructor
  · have htext : ((unreadable 1 99).span.text partedLetters).toList = "\uFFFD a\x0bb ".toList := by
      decide +kernel
    have hquote := (syntaxError_quotes_excerpt (firstFault?_unreadable 1 99) rfl partedLetters).2.2
    rw [htext] at hquote
    exact hquote fun hblank => absurd (hblank 'a' (by decide)) (by decide)
  · have htext : ((unreadable 2 3).span.text partedLetters).toList = [' '] := by decide +kernel
    refine (syntaxError_quotes_excerpt (firstFault?_unreadable 2 3) rfl partedLetters).2.1.mpr ?_
    rw [htext]
    exact List.forall_mem_singleton.mpr (by decide)

end Concrete

end CSharpAudit
