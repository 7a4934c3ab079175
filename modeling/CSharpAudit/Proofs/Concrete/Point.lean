import CSharpAudit.Proofs.Concrete.Damage
import CSharpAudit.Proofs.Source.Position
import CSharpAudit.Proofs.Text.Terminators

/-!
The place of a syntax error and the position of a finding at the same byte. The
grammar counts line feeds and bytes, a position counts line breaks and
characters. The two lines differ by the line terminators without a line feed;
where there are none, the two columns differ by the bytes beyond ASCII.
-/

namespace CSharpAudit.Concrete

open Text (feedsAfter feedlessUpTo)
open Utf8 (encodeChars IsBoundary)

theorem Point.row_ofOffset {source : Bytes} {s : Nat} (hs : s ≤ source.length) :
    (Point.ofOffset source s).row = (feedsAfter 0 source).countP (fun x => x ≤ s) := by
  simp only [Point.ofOffset, Span.clamp_of_le hs]
  rw [Text.count_take_eq 0, Nat.zero_add]

/-- The column counts from the last line feed on, or from the start of the
source if there is none. -/
theorem Point.column_ofOffset {source : Bytes} {start s : Nat} (hs : s ≤ source.length)
    (hle : start ≤ s) (hstart : start = 0 ∨ start ∈ feedsAfter 0 source)
    (hlast : ∀ x ∈ feedsAfter 0 source, x ≤ s → x ≤ start) :
    (Point.ofOffset source s).column = s - start := by
  have hsplit : source.take s = source.take start ++ (source.drop start).take (s - start) := by
    rw [← List.take_add, Nat.add_sub_cancel' hle]
  have hbetween : ∀ b ∈ ((source.drop start).take (s - start)).reverse, (b != 0x0A) = true := by
    intro b hb
    obtain ⟨i, hi, rfl⟩ := List.getElem_of_mem (List.mem_reverse.mp hb)
    rw [List.length_take, List.length_drop] at hi
    rw [List.getElem_take, List.getElem_drop, bne_iff_ne]
    intro hfeed
    have hmem : start + i + 1 ∈ feedsAfter 0 source :=
      Text.mem_feedsAfter.mpr ⟨start + i, by rw [← hfeed]; simp, by omega⟩
    have hearlier := hlast _ hmem (by omega)
    omega
  -- counting back, the first byte before `start` is the line feed that ends the count
  have hbefore : (source.take start).reverse.takeWhile (· != 0x0A) = [] := by
    rcases hstart with rfl | hstart
    · rfl
    · obtain ⟨i, hi, rfl⟩ := Text.mem_feedsAfter.mp hstart
      rw [Nat.zero_add, List.take_add_one, hi]
      simp
  simp only [Point.ofOffset, Span.clamp_of_le hs]
  rw [hsplit, List.reverse_append, List.takeWhile_append_of_pos hbetween, hbefore,
    List.append_nil, List.length_reverse, List.length_take, List.length_drop]
  omega

theorem lineOf_eq_row_add {text : List Char} {s : Nat} (hs : s ≤ (encodeChars text).length) :
    (LineTable.ofBytes (encodeChars text)).lineOf s =
      .ok ((Point.ofOffset (encodeChars text) s).row + 1 + feedlessUpTo text s) := by
  refine LineTable.lineOf_eq_ok_iff.mpr ⟨⟨by omega, Int.ofNat_le.mpr hs⟩, ?_⟩
  change _ = (List.filter _ (0 :: lineStartsAfter 0 (encodeChars text))).length
  rw [List.filter_cons_of_pos (by simp), List.length_cons, ← List.countP_eq_length_filter]
  simp only [Int.ofNat_le]
  rw [Text.countP_lineStartsAfter, ← Point.row_ofOffset hs]
  omega

theorem column_ofOffset_of_feedlessUpTo {text : List Char} {s k start : Nat}
    (hnone : feedlessUpTo text s = 0) (hs : s ≤ (encodeChars text).length)
    (hline : (LineTable.ofBytes (encodeChars text)).lineOf s = .ok (k + 1))
    (hget : (LineTable.ofBytes (encodeChars text)).starts[k]? = some start) (hle : start ≤ s) :
    (Point.ofOffset (encodeChars text) s).column = s - start := by
  apply Point.column_ofOffset hs hle
  · refine (List.mem_cons.mp (List.mem_of_getElem? hget)).imp_right fun hmem => ?_
    exact Text.mem_feedsAfter_of_mem_lineStartsAfter hnone hmem hle
  · intro x hx hxs
    have hmem := Text.mem_lineStartsAfter_of_mem_feedsAfter hx
    exact LineTable.le_of_mem_starts hline hget (List.mem_cons_of_mem _ hmem) (Int.ofNat_le.mpr hxs)

/-- From the start of a line up to a character boundary there are no more
characters than bytes, and as many exactly if all the bytes are ASCII. -/
theorem length_decodeChars_inLine {text : List Char} {s k start : Nat}
    (hboundary : IsBoundary text s)
    (hget : (LineTable.ofBytes (encodeChars text)).starts[k]? = some start) (hle : start ≤ s) :
    (Utf8.decodeChars (((encodeChars text).drop start).take (s - start))).length ≤ s - start ∧
      ((Utf8.decodeChars (((encodeChars text).drop start).take (s - start))).length = s - start ↔
        ∀ b ∈ ((encodeChars text).drop start).take (s - start), b < 0x80) := by
  obtain ⟨before, suffix, rfl, hs⟩ := hboundary
  obtain rfl : s = (encodeChars before).length := by omega
  obtain ⟨inLine, -, -, hread⟩ := Text.exists_inLine hget hle
  have hwidth : (encodeChars before).length - start = (encodeChars inLine).length := by
    rw [← hread, List.length_take, List.length_drop, Utf8.encodeChars_append, List.length_append]
    omega
  rw [hread, hwidth, Utf8.decodeChars_encodeChars]
  exact ⟨Utf8.length_le_length_encodeChars inLine, Utf8.length_eq_length_encodeChars_iff inLine⟩

open CSharpAudit.Tree (sourceOf)

/-- The place of an error at `s` and the position of a finding there. The error's
line lags behind by the terminators that end at `s` or before and are a
carriage return alone or a character beyond ASCII. If it does not lag, then on a
character boundary the error's column is the larger one, unless the line is
ASCII up to `s`. -/
theorem syntaxError_against_position (text : String) (raw fault : Node) (s : Nat)
    (hfault : raw.firstFault? = some fault) (hstart : fault.span.start = s)
    (hs : s ≤ (sourceOf text).length) (root : CSharpAudit.Node) (stop : Int) :
    ∃ line column line' column' start : Nat,
      (raw.syntaxError (sourceOf text)).line = some (line : Int) ∧
      (raw.syntaxError (sourceOf text)).column = some (column : Int) ∧
      Tree.lineOf ⟨root, sourceOf text⟩ ⟨s, stop⟩ = .ok line' ∧
      Tree.columnOf ⟨root, sourceOf text⟩ ⟨s, stop⟩ = .ok column' ∧
      (LineTable.ofBytes (sourceOf text)).lineStart line' = .ok start ∧
      line' = line + feedlessUpTo (withoutMark text).toList s ∧
      line ≤ line' ∧
      (line = line' ↔ ∀ t ∈ Text.terminatorsFrom 0 (withoutMark text).toList,
        t.isFeedless = true → s < t.stop) ∧
      (line = line' → IsBoundary (withoutMark text).toList s →
        column' ≤ column ∧
        (column' = column ↔
          ∀ b ∈ ((sourceOf text).drop start).take (s - start), b < 0x80)) := by
  let tree : Tree := ⟨root, sourceOf text⟩
  let point := Point.ofOffset (sourceOf text) s
  have herror : raw.syntaxError (sourceOf text) = fault.faultError (sourceOf text) := by
    rw [Node.syntaxError, hfault]
  obtain ⟨k, start, hget, hle, hline, hcolumn⟩ := tree.exists_position s stop hs
  have hrow : k + 1 = point.row + 1 + feedlessUpTo (withoutMark text).toList s :=
    Except.ok.inj (hline.symm.trans (lineOf_eq_row_add hs))
  rw [herror, Node.faultError, hstart]
  refine ⟨point.row + 1, point.column + 1, k + 1, _, start, rfl, rfl, hline, hcolumn,
    (LineTable.lineStart_succ _ k start).mpr hget, hrow, by omega, ?_, ?_⟩
  · rw [← Text.feedlessUpTo_eq_zero_iff]
    omega
  · intro hsame hboundary
    have hbytes : point.column = s - start :=
      column_ofOffset_of_feedlessUpTo (by omega) hs hline hget hle
    obtain ⟨hfewer, hascii⟩ := length_decodeChars_inLine hboundary hget hle
    rw [hbytes, Nat.add_le_add_iff_right, Nat.add_right_cancel_iff]
    exact ⟨hfewer, hascii⟩

def strayAt (s : Nat) : Node :=
  .branch "compilation_unit" ⟨0, s + 1⟩ [.branch "ERROR" ⟨s, s + 1⟩ []]

theorem firstFault?_strayAt (s : Nat) :
    (strayAt s).firstFault? = some (.branch "ERROR" ⟨s, s + 1⟩ []) := by
  have hroot : ¬ (strayAt s).isFault = true := by
    simp [strayAt, Node.branch, Node.isFault, Node.errorType]
  rw [Node.firstFault?, Node.faultFrom?, if_neg hroot]
  change Node.faultFrom? [.branch "ERROR" ⟨s, s + 1⟩ []] = _
  rw [Node.faultFrom?]
  rfl

def emptyUnit : CSharpAudit.Node :=
  .ofConcrete [] (.branch "compilation_unit" ⟨0, 0⟩ [])

theorem syntaxError_strayAt (s : Nat) (source : Bytes) :
    ((strayAt s).syntaxError source).line = some ((Point.ofOffset source s).row + 1 : Int) ∧
      ((strayAt s).syntaxError source).column =
        some ((Point.ofOffset source s).column + 1 : Int) := by
  rw [Node.syntaxError, firstFault?_strayAt]
  exact ⟨rfl, rfl⟩

/-- Behind a line break of two characters and an `é` the lines agree and the
columns do not. Between the two characters of such a break the lines differ, by
a carriage return and a line separator further up. -/
theorem syntaxError_against_position_strayAt :
    (∃ column' : Nat,
      ((strayAt 5).syntaxError (sourceOf "\r\né ]")).line = some 2 ∧
      ((strayAt 5).syntaxError (sourceOf "\r\né ]")).column = some 4 ∧
      Tree.lineOf ⟨emptyUnit, sourceOf "\r\né ]"⟩ ⟨5, 6⟩ = .ok 2 ∧
      Tree.columnOf ⟨emptyUnit, sourceOf "\r\né ]"⟩ ⟨5, 6⟩ = .ok column' ∧ column' < 4) ∧
    ((strayAt 6).syntaxError (sourceOf "a\r\u2028\r\n")).line = some 1 ∧
    Tree.lineOf ⟨emptyUnit, sourceOf "a\r\u2028\r\n"⟩ ⟨6, 7⟩ = .ok 3 := by
  constructor
  · obtain ⟨line, column, line', column', start, hline, hcolumn, hline', hcolumn', hstart, hlag, -,
      -, hcolumns⟩ :=
      syntaxError_against_position "\r\né ]" (strayAt 5) _ 5 (firstFault?_strayAt 5) rfl (by decide)
        emptyUnit 6
    have hplace := syntaxError_strayAt 5 (sourceOf "\r\né ]")
    obtain rfl : line = 2 := by
      have h := Option.some.inj (hline.symm.trans hplace.1)
      exact Int.ofNat_inj.mp h
    obtain rfl : column = 4 := by
      have h := Option.some.inj (hcolumn.symm.trans hplace.2)
      exact Int.ofNat_inj.mp h
    obtain rfl : line' = 2 := by
      rw [hlag]
      decide
    have hstarts : (LineTable.ofBytes (sourceOf "\r\né ]")).starts = [0, 2] := by
      change 0 :: lineStartsAfter 0 (encodeChars "\r\né ]".toList) = _
      rw [← Text.map_stop_terminatorsFrom]
      decide
    obtain rfl : start = 2 := by
      have h := (LineTable.lineStart_succ _ 1 start).mp hstart
      rw [hstarts] at h
      exact (Option.some.inj h).symm
    obtain ⟨hle, hascii⟩ := hcolumns rfl (by decide)
    have hne : column' ≠ 4 := by
      intro heq
      -- the first byte of `é`
      have hlow := hascii.mp heq 0xC3 (by decide)
      exact absurd hlow (by decide)
    exact ⟨column', hline, hcolumn, hline', hcolumn', by omega⟩
  · obtain ⟨line, column, line', column', start, hline, -, hline', -, -, hlag, -⟩ :=
      syntaxError_against_position "a\r\u2028\r\n" (strayAt 6) _ 6 (firstFault?_strayAt 6) rfl
        (by decide) emptyUnit 7
    obtain rfl : line = 1 := by
      have h := Option.some.inj (hline.symm.trans (syntaxError_strayAt 6 _).1)
      exact Int.ofNat_inj.mp h
    obtain rfl : line' = 3 := by
      rw [hlag]
      decide
    exact ⟨hline, hline'⟩

end CSharpAudit.Concrete
