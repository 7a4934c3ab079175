import CSharpAudit.Proofs.Text.Utf8
import CSharpAudit.Source.LineTable

/-!
Lines of a text, told from its characters, and the lines of its bytes. The
scan of the bytes finds a line break exactly where the text has one: no
character other than the line terminators has bytes that look like one.
-/

namespace CSharpAudit.Text

open Utf8

/-- The characters that end a line of a program. A carriage return and a line
feed after it end it together. -/
def isTerminator (c : Char) : Bool :=
  c == '\r' || c == '\n' || c == '\u0085' || c == '\u2028' || c == '\u2029'

/-- The lines of a text, each with its terminator. What follows the last
terminator is a line too, even if it is empty. -/
def lines : List Char → List (List Char)
  | [] => [[]]
  | '\r' :: '\n' :: rest => ['\r', '\n'] :: lines rest
  | c :: rest =>
    if isTerminator c then [c] :: lines rest
    else
      match lines rest with
      | [] => [[c]]
      | line :: more => (c :: line) :: more

theorem lines_ne_nil (text : List Char) : lines text ≠ [] := by
  fun_cases lines text <;> simp_all

theorem flatten_lines (text : List Char) : (lines text).flatten = text := by
  fun_induction lines text with
  | case1 => rfl
  | case2 rest ih => simp [ih]
  | case3 c rest hcrlf hc ih => simp [ih]
  | case4 c rest hcrlf hc hnil ih => exact absurd hnil (lines_ne_nil rest)
  | case5 c rest hcrlf hc line more hlines ih =>
      rw [hlines] at ih
      simp only [List.flatten_cons, List.cons_append] at ih ⊢
      rw [ih]

example : lines "a\r\nb\r\r\u2028".toList =
    ["a\r\n".toList, "b\r".toList, "\r".toList, "\u2028".toList, []] := by
  decide

theorem isTerminator_iff (c : Char) :
    isTerminator c = true ↔ c.toNat = 0x0D ∨ c.toNat = 0x0A ∨ c.toNat = 0x85 ∨
      c.toNat = 0x2028 ∨ c.toNat = 0x2029 := by
  simp [isTerminator, ← Char.toNat_inj, or_assoc]

theorem lineBreakWidth_encodeChar {c : Char} (hc : isTerminator c = false) (rest : Bytes) :
    lineBreakWidth (String.utf8EncodeChar c ++ rest) = 0 := by
  have hnat : ¬ (c.val.toNat = 0x0D ∨ c.val.toNat = 0x0A ∨ c.val.toNat = 0x85 ∨
      c.val.toNat = 0x2028 ∨ c.val.toNat = 0x2029) := by
    intro h
    rw [(isTerminator_iff c).mpr h] at hc
    contradiction
  have hvalid := val_valid c
  fun_cases String.utf8EncodeChar c with
  | case1 v h =>
      have hb : (UInt8.ofNat v).toNat = v := by
        rw [UInt8.toNat_ofNat']
        omega
      simp only [List.cons_append, lineBreakWidth, ← UInt8.toNat_inj, hb, UInt8.reduceToNat]
      split_ifs <;> omega
  | case2 v h1 h2 =>
      have hb := toNat_lead_two h2
      simp only [List.cons_append, lineBreakWidth, List.head?_cons, Option.some.injEq,
        ← UInt8.toNat_inj, hb, toNat_tail, UInt8.reduceToNat]
      split_ifs <;> omega
  | case3 v h1 h2 h3 =>
      have hb := toNat_lead_three h3
      simp only [List.cons_append, lineBreakWidth, List.head?_cons, Option.some.injEq,
        List.take_succ_cons, List.take_zero, List.cons.injEq, ← UInt8.toNat_inj, hb, toNat_tail,
        UInt8.reduceToNat]
      split_ifs <;> omega
  | case4 v h1 h2 h3 =>
      have hb := toNat_lead_four (v := v) (by omega)
      simp only [List.cons_append, lineBreakWidth, ← UInt8.toNat_inj, hb, UInt8.reduceToNat]
      split_ifs <;> omega

theorem lineBreakWidth_continuation {b : UInt8} (hb : isContinuation b = true) (rest : Bytes) :
    lineBreakWidth (b :: rest) = 0 := by
  rw [isContinuation_iff] at hb
  simp only [lineBreakWidth, ← UInt8.toNat_inj, UInt8.reduceToNat]
  split_ifs <;> omega

theorem lineStartsAfter_cons_of_width_eq_zero {b : UInt8} {rest : Bytes} (offset : Nat)
    (h : lineBreakWidth (b :: rest) = 0) :
    lineStartsAfter offset (b :: rest) = lineStartsAfter (offset + 1) rest := by
  rw [lineStartsAfter, h]

theorem lineStartsAfter_append_of_width {brk : Bytes} (rest : Bytes) (offset : Nat)
    (hne : brk ≠ []) (hwidth : lineBreakWidth (brk ++ rest) = brk.length) :
    lineStartsAfter offset (brk ++ rest) =
      (offset + brk.length) :: lineStartsAfter (offset + brk.length) rest := by
  cases brk with
  | nil => contradiction
  | cons b bs =>
      rw [List.cons_append] at hwidth ⊢
      rw [lineStartsAfter, hwidth, List.length_cons]
      simp [Nat.add_assoc]

theorem lineStartsAfter_continuations {bs : Bytes} (hbs : ∀ x ∈ bs, isContinuation x = true)
    (rest : Bytes) (offset : Nat) :
    lineStartsAfter offset (bs ++ rest) = lineStartsAfter (offset + bs.length) rest := by
  induction bs generalizing offset with
  | nil => rfl
  | cons b bs ih =>
      obtain ⟨hb, hbs⟩ := List.forall_mem_cons.mp hbs
      rw [List.cons_append,
        lineStartsAfter_cons_of_width_eq_zero _ (lineBreakWidth_continuation hb _), ih hbs,
        List.length_cons, Nat.add_assoc, Nat.add_comm 1]

theorem lineStartsAfter_encodeChar {c : Char} (hc : isTerminator c = false) (rest : Bytes)
    (offset : Nat) :
    lineStartsAfter offset (String.utf8EncodeChar c ++ rest) =
      lineStartsAfter (offset + (String.utf8EncodeChar c).length) rest := by
  have hwidth := lineBreakWidth_encodeChar hc rest
  obtain ⟨b, bs, hbytes, hbs, -⟩ := exists_encodeChar_eq c
  rw [hbytes, List.cons_append] at hwidth ⊢
  rw [lineStartsAfter_cons_of_width_eq_zero _ hwidth, lineStartsAfter_continuations hbs,
    List.length_cons, Nat.add_assoc, Nat.add_comm 1]

theorem head?_encodeChars_eq_lineFeed {text : List Char}
    (h : (encodeChars text).head? = some 0x0A) : ∃ rest, text = '\n' :: rest := by
  cases text with
  | nil => simp at h
  | cons c rest =>
      obtain ⟨b, bs, hbytes, -, hfirst⟩ := exists_encodeChar_eq c
      rw [encodeChars_cons, hbytes] at h
      obtain rfl : b = 0x0A := by simpa using h
      have hpiece := hfirst []
      simp only [Piece.first] at hpiece
      rw [if_pos (by decide)] at hpiece
      obtain rfl : '\n' = c := by
        injection hpiece
      exact ⟨rest, rfl⟩

theorem lineStartsAfter_terminator {c : Char} {rest : List Char} (hc : isTerminator c = true)
    (hcrlf : ∀ more, c = '\r' → rest = '\n' :: more → False) (offset : Nat) :
    lineStartsAfter offset (encodeChars (c :: rest)) =
      (offset + (String.utf8EncodeChar c).length) ::
        lineStartsAfter (offset + (String.utf8EncodeChar c).length) (encodeChars rest) := by
  have hne : String.utf8EncodeChar c ≠ [] := List.ne_nil_of_length_pos (length_encodeChar_pos c)
  rw [encodeChars_cons]
  apply lineStartsAfter_append_of_width _ _ hne
  simp only [isTerminator, Bool.or_eq_true, beq_iff_eq] at hc
  -- only after a carriage return does the scan look at the next character
  rcases hc with (((rfl | rfl) | rfl) | rfl) | rfl
  · have hhead : (encodeChars rest).head? ≠ some 0x0A := by
      intro h
      obtain ⟨more, hmore⟩ := head?_encodeChars_eq_lineFeed h
      exact hcrlf more rfl hmore
    change (if (encodeChars rest).head? = some 0x0A then 2 else 1) = 1
    rw [if_neg hhead]
  all_goals rfl

/-- The offsets at which pieces of text begin that follow one another, the
first of them at `offset`. -/
def startsFrom (offset : Nat) : List (List Char) → List Nat
  | [] => []
  | piece :: rest => offset :: startsFrom (offset + (encodeChars piece).length) rest

theorem getElem?_startsFrom (offset : Nat) (pieces : List (List Char)) (k : Nat) :
    (startsFrom offset pieces)[k]? =
      if k < pieces.length then some (offset + (encodeChars (pieces.take k).flatten).length)
      else none := by
  induction pieces generalizing offset k with
  | nil => simp [startsFrom]
  | cons piece rest ih =>
      cases k with
      | zero => simp [startsFrom]
      | succ k => simp [startsFrom, ih, Nat.add_assoc]

theorem cons_lineStartsAfter_encodeChars (text : List Char) (offset : Nat) :
    offset :: lineStartsAfter offset (encodeChars text) = startsFrom offset (lines text) := by
  fun_induction lines text generalizing offset with
  | case1 => simp [lineStartsAfter, startsFrom]
  | case2 rest ih =>
      have hbytes : encodeChars ('\r' :: '\n' :: rest) = [0x0D, 0x0A] ++ encodeChars rest := rfl
      rw [hbytes, lineStartsAfter_append_of_width _ _ (by simp) (by rfl), ih, startsFrom]
      rfl
  | case3 c rest hcrlf hc ih =>
      rw [lineStartsAfter_terminator hc hcrlf, ih, startsFrom, encodeChars_cons, encodeChars_nil,
        List.append_nil]
  | case4 c rest hcrlf hc hnil ih => exact absurd hnil (lines_ne_nil rest)
  | case5 c rest hcrlf hc line more hlines ih =>
      -- `c` moves the start of the first line back and leaves all other starts alone
      have hrest := ih (offset + (String.utf8EncodeChar c).length)
      rw [hlines, startsFrom, List.cons.injEq] at hrest
      rw [encodeChars_cons, lineStartsAfter_encodeChar (by simpa using hc), hrest.2, startsFrom,
        encodeChars_cons, List.length_append, Nat.add_assoc]

/-- The start of a line lies on a character boundary: before it are the lines
before. -/
theorem exists_of_getElem?_starts {text : List Char} {k start : Nat}
    (h : (LineTable.ofBytes (encodeChars text)).starts[k]? = some start) :
    k < (lines text).length ∧
      start = (encodeChars ((lines text).take k).flatten).length ∧
      ∃ rest, text = ((lines text).take k).flatten ++ rest := by
  change (0 :: lineStartsAfter 0 (encodeChars text))[k]? = some start at h
  rw [cons_lineStartsAfter_encodeChars, getElem?_startsFrom] at h
  split at h
  · next hk =>
    refine ⟨hk, ?_, ((lines text).drop k).flatten, ?_⟩
    · simpa using h.symm
    · rw [← List.flatten_append, List.take_append_drop, flatten_lines]
  · contradiction

/-- A beginning of a text that reaches the start of a line goes on from there,
and the bytes from that start on are those of the characters it goes on with. -/
theorem exists_inLine {before suffix : List Char} {k start : Nat}
    (hget : (LineTable.ofBytes (encodeChars (before ++ suffix))).starts[k]? = some start)
    (hle : start ≤ (encodeChars before).length) :
    ∃ inLine, k < (lines (before ++ suffix)).length ∧
      before = ((lines (before ++ suffix)).take k).flatten ++ inLine ∧
      ((encodeChars (before ++ suffix)).drop start).take
        ((encodeChars before).length - start) = encodeChars inLine := by
  obtain ⟨hk, rfl, rest, hrest⟩ := exists_of_getElem?_starts hget
  obtain ⟨inLine, hbefore, rfl⟩ :=
    exists_eq_append_of_length_encodeChars_le hrest.symm hle
  refine ⟨inLine, hk, hbefore, ?_⟩
  have hread := take_drop_encodeChars ((lines (before ++ suffix)).take k).flatten inLine suffix
  rwa [← hrest, ← hbefore] at hread

end CSharpAudit.Text
