import CSharpAudit.Proofs.Source.Position
import CSharpAudit.Proofs.Text.Lines

/-!
A source behind whole lines. Lines in front of a text leave its own lines as they
are, only their numbers and their offsets grow, and what a range cuts out of the
text, the same range further back cuts out of the two together.
-/

namespace CSharpAudit

namespace Text

open Utf8

/-- How many line terminators a text has. A carriage return and a line feed
after it count once. -/
def terminatorCount : List Char → Nat
  | [] => 0
  | '\r' :: '\n' :: rest => terminatorCount rest + 1
  | c :: rest => if isTerminator c then terminatorCount rest + 1 else terminatorCount rest

theorem length_lines (text : List Char) : (lines text).length = terminatorCount text + 1 := by
  fun_induction lines text with
  | case1 => rfl
  | case2 rest ih => rw [List.length_cons, ih, terminatorCount]
  | case3 c rest hcrlf hc ih =>
      rw [List.length_cons, ih, terminatorCount, if_pos hc]
      exact hcrlf
  | case4 c rest hcrlf hc hnil ih => exact absurd hnil (lines_ne_nil rest)
  | case5 c rest hcrlf hc line more hlines ih =>
      rw [terminatorCount, if_neg hc, ← ih, hlines]
      · rfl
      · exact hcrlf

example : terminatorCount "\r\r\n\nx\u2028".toList = 4 := by
  decide

theorem terminatorCount_pos {text : List Char} {c : Char} (hmem : c ∈ text)
    (hc : isTerminator c = true) : 0 < terminatorCount text := by
  fun_induction terminatorCount text with
  | case1 => simp at hmem
  | case2 rest ih => omega
  | case3 d rest hcrlf hd ih => omega
  | case4 d rest hcrlf hd ih =>
      rcases List.mem_cons.mp hmem with rfl | hmem
      · contradiction
      · exact ih hmem

/-- A text in whole lines: it is empty or ends with a terminator, and the text
that follows does not prolong its last terminator. -/
structure WholeLines (before after : List Char) : Prop where
  ended : ∀ c, before.getLast? = some c → isTerminator c = true
  apart : ¬ (before.getLast? = some '\r' ∧ after.head? = some '\n')

theorem WholeLines.tail {c : Char} {rest after : List Char} (h : WholeLines (c :: rest) after) :
    WholeLines rest after := by
  cases rest with
  | nil => exact ⟨by simp, by simp⟩
  | cons d more =>
      have hlast : (c :: d :: more).getLast? = (d :: more).getLast? := List.getLast?_cons_cons
      exact ⟨hlast ▸ h.ended, hlast ▸ h.apart⟩

theorem WholeLines.not_crlf {c : Char} {rest after : List Char} (h : WholeLines (c :: rest) after)
    (hcrlf : ∀ more, c = '\r' → rest = '\n' :: more → False) :
    ∀ more, c = '\r' → rest ++ after = '\n' :: more → False := by
  intro more hc hmore
  cases rest with
  | nil =>
      apply h.apart
      rw [List.nil_append] at hmore
      simp [hc, hmore]
  | cons d rest =>
      obtain rfl : d = '\n' := (List.cons.inj hmore).1
      exact hcrlf rest hc rfl

theorem lines_append {before after : List Char} (h : WholeLines before after) :
    lines (before ++ after) = (lines before).dropLast ++ lines after := by
  fun_induction lines before with
  | case1 => rfl
  | case2 rest ih =>
      rw [List.cons_append, List.cons_append, lines, ih h.tail.tail,
        List.dropLast_cons_of_ne_nil (lines_ne_nil rest), List.cons_append]
  | case3 c rest hcrlf hc ih =>
      rw [List.cons_append, lines, if_pos hc, ih h.tail,
        List.dropLast_cons_of_ne_nil (lines_ne_nil rest), List.cons_append]
      exact h.not_crlf hcrlf
  | case4 c rest hcrlf hc hnil ih => exact absurd hnil (lines_ne_nil rest)
  | case5 c rest hcrlf hc line more hlines ih =>
      -- the text ends with a terminator and `c` is none, so more lines follow that of `c`
      have hmore : more ≠ [] := by
        cases hlast : rest.getLast? with
        | none =>
            obtain rfl := List.getLast?_eq_none_iff.mp hlast
            exact absurd (h.ended c rfl) hc
        | some d =>
            have hcount := terminatorCount_pos (List.mem_of_getLast? hlast) (h.tail.ended d hlast)
            have hlength := length_lines rest
            rw [hlines, List.length_cons] at hlength
            exact List.ne_nil_of_length_pos (by omega)
      have hdrop : (line :: more).dropLast = line :: more.dropLast :=
        List.dropLast_cons_of_ne_nil hmore
      rw [List.cons_append, lines, if_neg hc, ih h.tail, hlines, hdrop]
      · exact congrArg (· ++ lines after) (List.dropLast_cons_of_ne_nil hmore).symm
      · exact h.not_crlf hcrlf

theorem flatten_dropLast_lines {before after : List Char} (h : WholeLines before after) :
    (lines before).dropLast.flatten = before := by
  have hflatten := flatten_lines (before ++ after)
  rw [lines_append h, List.flatten_append, flatten_lines] at hflatten
  exact List.append_cancel_right hflatten

theorem startsFrom_append (offset : Nat) (a b : List (List Char)) :
    startsFrom offset (a ++ b) =
      startsFrom offset a ++ startsFrom (offset + (encodeChars a.flatten).length) b := by
  induction a generalizing offset with
  | nil => rfl
  | cons piece rest ih => simp [startsFrom, ih, Nat.add_assoc]

theorem startsFrom_add (offset k : Nat) (pieces : List (List Char)) :
    startsFrom (offset + k) pieces = (startsFrom offset pieces).map (· + k) := by
  induction pieces generalizing offset with
  | nil => rfl
  | cons piece rest ih =>
      rw [startsFrom, startsFrom, List.map_cons, ← ih, Nat.add_right_comm]

theorem length_startsFrom (offset : Nat) (pieces : List (List Char)) :
    (startsFrom offset pieces).length = pieces.length := by
  induction pieces generalizing offset with
  | nil => rfl
  | cons piece rest ih => rw [startsFrom, List.length_cons, ih, List.length_cons]

theorem le_of_mem_startsFrom {offset start : Nat} {pieces : List (List Char)}
    (h : start ∈ startsFrom offset pieces) :
    start ≤ offset + (encodeChars pieces.flatten).length := by
  induction pieces generalizing offset with
  | nil => simp [startsFrom] at h
  | cons piece rest ih =>
      rw [List.flatten_cons, encodeChars_append, List.length_append]
      rcases List.mem_cons.mp h with rfl | h
      · omega
      · have hlater := ih h
        omega

/-- The lines of two texts together start where those of the first start, and
then where those of the second start, further back. -/
theorem starts_append {before after : List Char} (h : WholeLines before after) :
    ∃ earlier : List Nat, earlier.length = terminatorCount before ∧
      (∀ start ∈ earlier, start ≤ (encodeChars before).length) ∧
      (LineTable.ofBytes (encodeChars before ++ encodeChars after)).starts =
        earlier ++ (LineTable.ofBytes (encodeChars after)).starts.map
          (· + (encodeChars before).length) := by
  refine ⟨startsFrom 0 (lines before).dropLast, ?_, fun start hstart => ?_, ?_⟩
  · rw [length_startsFrom, List.length_dropLast, length_lines, Nat.add_sub_cancel]
  · have hle := le_of_mem_startsFrom hstart
    rwa [flatten_dropLast_lines h, Nat.zero_add] at hle
  · change 0 :: lineStartsAfter 0 (encodeChars before ++ encodeChars after) =
      _ ++ (0 :: lineStartsAfter 0 (encodeChars after)).map _
    rw [← encodeChars_append, cons_lineStartsAfter_encodeChars, cons_lineStartsAfter_encodeChars,
      lines_append h, startsFrom_append, flatten_dropLast_lines h, startsFrom_add]

end Text

namespace Span

def shifted (k : Nat) (s : Span) : Span :=
  ⟨s.start + k, s.stop + k⟩

structure Within (s : Span) (length : Nat) : Prop where
  start : 0 ≤ s.start ∧ s.start ≤ length
  stop : 0 ≤ s.stop ∧ s.stop ≤ length

instance (s : Span) (length : Nat) : Decidable (s.Within length) :=
  decidable_of_iff ((0 ≤ s.start ∧ s.start ≤ length) ∧ 0 ≤ s.stop ∧ s.stop ≤ length)
    ⟨fun ⟨h1, h2⟩ => ⟨h1, h2⟩, fun ⟨h1, h2⟩ => ⟨h1, h2⟩⟩

theorem slice_shifted (before after : Bytes) {s : Span} (h : s.Within after.length) :
    (s.shifted before.length).slice (before ++ after) = s.slice after := by
  obtain ⟨start, stop⟩ := s
  obtain ⟨⟨hstart, hstart'⟩, hstop, hstop'⟩ := h
  obtain ⟨i, rfl⟩ := Int.eq_ofNat_of_zero_le hstart
  obtain ⟨j, rfl⟩ := Int.eq_ofNat_of_zero_le hstop
  have hi : i ≤ after.length := Int.ofNat_le.mp hstart'
  have hj : j ≤ after.length := Int.ofNat_le.mp hstop'
  have hlength : (before ++ after).length = before.length + after.length := List.length_append
  have hshift : Span.shifted before.length ⟨i, j⟩ =
      ⟨(before.length + i : Nat), (before.length + j : Nat)⟩ := by
    change Span.mk (i + before.length) (j + before.length) = _
    rw [Span.mk.injEq]
    omega
  rw [hshift, slice_of_le (by omega) (by omega), slice_of_le hi hj, List.drop_length_add_append,
    Nat.add_sub_add_left]

theorem text_shifted (before after : Bytes) {s : Span} (h : s.Within after.length) :
    (s.shifted before.length).text (before ++ after) = s.text after := by
  rw [text, text, slice_shifted before after h]

end Span

namespace LineTable

open Text (WholeLines terminatorCount)
open Utf8 (encodeChars)

theorem lineOf_shifted {before after : List Char} (h : WholeLines before after) {offset : Int}
    {line : Nat} (hline : (ofBytes (encodeChars after)).lineOf offset = .ok line) :
    (ofBytes (encodeChars before ++ encodeChars after)).lineOf
        (offset + (encodeChars before).length) =
      .ok (terminatorCount before + line) := by
  obtain ⟨⟨hstart, hstop⟩, rfl⟩ := lineOf_eq_ok_iff.mp hline
  obtain ⟨earlier, hlength, hearlier, hstarts⟩ := Text.starts_append h
  have hrange : (encodeChars before ++ encodeChars after).length =
      (encodeChars before).length + (encodeChars after).length := List.length_append
  have hall : earlier.filter (fun (start : Nat) =>
      (start : Int) ≤ offset + (encodeChars before).length) = earlier := by
    rw [List.filter_eq_self]
    intro start hmem
    have hle := hearlier start hmem
    simp only [decide_eq_true_eq]
    omega
  rw [lineOf_eq_ok_iff, hrange, hstarts, List.filter_append, List.length_append, hall, hlength,
    List.filter_map, List.length_map]
  refine ⟨by omega, ?_⟩
  simp only [Function.comp_def, Int.natCast_add, Int.add_le_add_iff_right]

end LineTable

namespace Tree

open Text (WholeLines terminatorCount)
open Utf8 (encodeChars)

/-- Lines in front move a span to a later line and leave its column alone. -/
theorem exists_position_shifted {before after : List Char} (h : WholeLines before after)
    (root root' : Node) {s : Span}
    (hs : 0 ≤ s.start ∧ s.start ≤ (encodeChars after).length) :
    ∃ line column : Nat,
      lineOf ⟨root, encodeChars after⟩ s = .ok line ∧
      columnOf ⟨root, encodeChars after⟩ s = .ok column ∧
      lineOf ⟨root', encodeChars before ++ encodeChars after⟩
        (s.shifted (encodeChars before).length) = .ok (terminatorCount before + line) ∧
      columnOf ⟨root', encodeChars before ++ encodeChars after⟩
        (s.shifted (encodeChars before).length) = .ok column := by
  obtain ⟨start, stop⟩ := s
  obtain ⟨hstart, hstop⟩ := hs
  obtain ⟨i, rfl⟩ := Int.eq_ofNat_of_zero_le hstart
  have hi : i ≤ (encodeChars after).length := Int.ofNat_le.mp hstop
  let behind : Tree := ⟨root', encodeChars before ++ encodeChars after⟩
  obtain ⟨k, first, hget, hle, hline, hcolumn⟩ :=
    exists_position ⟨root, encodeChars after⟩ i stop hi
  obtain ⟨k', first', hget', hle', hline', hcolumn'⟩ :=
    behind.exists_position (i + (encodeChars before).length)
      (stop + (encodeChars before).length) (by simp [behind]; omega)
  have hmoved : behind.lineOf ⟨(i + (encodeChars before).length : Nat),
      stop + (encodeChars before).length⟩ = .ok (terminatorCount before + (k + 1)) :=
    LineTable.lineOf_shifted h hline
  obtain rfl : k' = terminatorCount before + k := by
    rw [hline', Except.ok.injEq] at hmoved
    omega
  obtain ⟨earlier, hlength, -, hstarts⟩ := Text.starts_append h
  obtain rfl : first' = first + (encodeChars before).length := by
    change (LineTable.ofBytes (encodeChars before ++ encodeChars after)).starts[_]? = _ at hget'
    change (LineTable.ofBytes (encodeChars after)).starts[k]? = _ at hget
    rw [hstarts, ← hlength, List.getElem?_append_right (Nat.le_add_right _ _),
      Nat.add_sub_cancel_left, List.getElem?_map, hget] at hget'
    exact (Option.some.inj hget').symm
  have hread : (behind.source.drop (first + (encodeChars before).length)).take
      (i + (encodeChars before).length - (first + (encodeChars before).length)) =
        ((encodeChars after).drop first).take (i - first) := by
    rw [Nat.add_sub_add_right, Nat.add_comm first]
    exact congrArg (List.take (i - first)) (List.drop_length_add_append first)
  rw [hread] at hcolumn'
  exact ⟨k + 1, _, hline, hcolumn, hmoved, hcolumn'⟩

end Tree

end CSharpAudit
