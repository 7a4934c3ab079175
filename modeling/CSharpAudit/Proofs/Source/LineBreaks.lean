import CSharpAudit.Proofs.Source.LineTable
import CSharpAudit.Proofs.Text.Scan

/-!
The line breaks of a source. The line table is told from them alone, for bytes of any
kind: a line starts behind each of them, and the line of an offset counts those that
end no later. The two tables are adjoint, so each tells the other. In the bytes of a
text the line breaks are the bytes of its line terminators.
-/

namespace CSharpAudit

open Text (Scan Stretch byteOffset wordAt?)

/-- The bytes that end a line. Where two of them stand at one place, the first one
counts: a carriage return takes the line feed behind it along. -/
def lineBreaks : List Bytes :=
  [[0x0D, 0x0A], [0x0D], [0x0A], [0xC2, 0x85], [0xE2, 0x80, 0xA8], [0xE2, 0x80, 0xA9]]

theorem nil_not_mem_lineBreaks : [] ∉ lineBreaks := by
  decide

theorem lineBreakWidth_eq (bytes : Bytes) :
    lineBreakWidth bytes =
      ((lineBreaks.find? (fun word => word.isPrefixOf bytes)).map List.length).getD 0 := by
  cases bytes with
  | nil => rfl
  | cons b rest =>
      have hone (x : UInt8) : rest.head? = some x ↔ [x].isPrefixOf rest = true := by
        rw [List.isPrefixOf_iff_prefix, List.prefix_iff_eq_take, eq_comm]
        cases rest <;> simp
      have htwo (x y : UInt8) : rest.take 2 = [x, y] ↔ [x, y].isPrefixOf rest = true := by
        rw [List.isPrefixOf_iff_prefix, List.prefix_iff_eq_take, eq_comm]
        rfl
      simp only [lineBreakWidth, hone, htwo, lineBreaks, List.find?_cons, List.isPrefixOf_cons_cons,
        List.isPrefixOf_nil_left, Bool.and_true, List.find?_nil]
      by_cases h1 : b = 0x0D
      · subst h1
        cases [0x0A].isPrefixOf rest <;> rfl
      by_cases h2 : b = 0x0A
      · subst h2
        rfl
      by_cases h3 : b = 0xC2
      · subst h3
        cases [0x85].isPrefixOf rest <;> rfl
      by_cases h4 : b = 0xE2
      · subst h4
        cases [0x80, 0xA8].isPrefixOf rest <;> cases [0x80, 0xA9].isPrefixOf rest <;> rfl
      · have hother {x : UInt8} (h : b ≠ x) : (x == b) = false := beq_false_of_ne h.symm
        simp [h1, h2, h3, h4, hother]

theorem length_wordAt?_lineBreaks (source : Bytes) (offset : Nat) :
    ((wordAt? lineBreaks source offset).map List.length).getD 0 =
      lineBreakWidth (source.drop offset) :=
  (lineBreakWidth_eq _).symm

/-- The scan of the bytes stops behind each line break that a search finds. -/
theorem exists_scan_lineStartsAfter (source : Bytes) (offset : Nat) :
    ∃ found, Scan lineBreaks source offset found ∧
      found.map Stretch.stop = lineStartsAfter offset (source.drop offset) := by
  generalize hbytes : source.drop offset = bytes
  fun_induction lineStartsAfter offset bytes with
  | case1 offset =>
      exact ⟨[], .atEnd nil_not_mem_lineBreaks (List.drop_eq_nil_iff.mp hbytes), rfl⟩
  | case2 offset b rest hwidth ih =>
      have hlength := length_wordAt?_lineBreaks source offset
      rw [hbytes, hwidth] at hlength
      have hnone : wordAt? lineBreaks source offset = none := by
        by_contra hsome
        obtain ⟨word, hword⟩ := Option.ne_none_iff_exists'.mp hsome
        have hpos := Text.length_pos_of_wordAt? nil_not_mem_lineBreaks hword
        rw [hword, Option.map_some, Option.getD_some] at hlength
        omega
      have hrest : source.drop (offset + 1) = rest := by
        rw [← List.drop_drop, hbytes, List.drop_succ_cons, List.drop_zero]
      obtain ⟨found, hfound, hstops⟩ := ih hrest
      exact ⟨found, hfound.skip hnone, hstops⟩
  | case3 offset b rest extra hwidth ih =>
      have hlength := length_wordAt?_lineBreaks source offset
      rw [hbytes, hwidth] at hlength
      obtain ⟨word, hword⟩ : ∃ word, wordAt? lineBreaks source offset = some word := by
        apply Option.ne_none_iff_exists'.mp
        intro hnone
        rw [hnone] at hlength
        exact absurd hlength (Nat.zero_ne_add_one extra)
      rw [hword, Option.map_some, Option.getD_some] at hlength
      have hrest : source.drop (offset + extra + 1) = rest.drop extra := by
        rw [Nat.add_assoc, ← List.drop_drop, hbytes, List.drop_succ_cons]
      obtain ⟨later, hlater, hstops⟩ := ih hrest
      have hnext : offset + extra + 1 = offset + word.length := by omega
      rw [hnext] at hlater hstops ⊢
      refine ⟨_, .hit hword hlater, ?_⟩
      rw [List.map_cons, hstops]

namespace LineTable

theorem starts_of_scan {source : Bytes} {found : List Stretch}
    (h : Scan lineBreaks source 0 found) :
    (ofBytes source).starts = 0 :: found.map Stretch.stop := by
  obtain ⟨found', hfound', hstops⟩ := exists_scan_lineStartsAfter source 0
  rw [h.unique hfound', hstops]
  rfl

theorem lineOf_of_scan {source : Bytes} {found : List Stretch}
    (h : Scan lineBreaks source 0 found) {offset : Int}
    (hoffset : 0 ≤ offset ∧ offset ≤ source.length) :
    (ofBytes source).lineOf offset =
      .ok (1 + found.countP fun s => (s.stop : Int) ≤ offset) := by
  rw [lineOf_ofBytes, if_pos hoffset, starts_of_scan h, ← List.countP_eq_length_filter,
    List.countP_cons_of_pos (by simpa using hoffset.1), List.countP_map, Nat.add_comm]
  rfl

/-- The adjunction: a line is reached by an offset exactly if it starts no later. -/
theorem lt_line_iff {source : Bytes} {offset : Int} {line k start : Nat}
    (hline : (ofBytes source).lineOf offset = .ok line)
    (hget : (ofBytes source).starts[k]? = some start) : k < line ↔ (start : Int) ≤ offset := by
  rw [(lineOf_eq_ok_iff.mp hline).2, lt_length_filter_iff (pairwise_starts source)]
  constructor
  · rintro ⟨start', hget', hle⟩
    obtain rfl := Option.some.inj (hget.symm.trans hget')
    exact hle
  · intro hle
    exact ⟨start, hget, hle⟩

theorem exists_lineStart_le {source : Bytes} {offset : Int} {line : Nat}
    (hline : (ofBytes source).lineOf offset = .ok line) :
    ∃ start : Nat, (ofBytes source).lineStart line = .ok start ∧ (start : Int) ≤ offset := by
  obtain ⟨k, start, hline', hget, hle⟩ := exists_line source (lineOf_eq_ok_iff.mp hline).1
  obtain rfl := Except.ok.inj (hline.symm.trans hline')
  exact ⟨start, (lineStart_succ _ k start).mpr hget, hle⟩

theorem exists_lt_lineStart {source : Bytes} {offset : Int} {line : Nat}
    (hline : (ofBytes source).lineOf offset = .ok line)
    (hnext : line + 1 ≤ (ofBytes source).lineCount) :
    ∃ next : Nat, (ofBytes source).lineStart (line + 1 : Nat) = .ok next ∧ offset < next := by
  have hget := List.getElem?_eq_getElem (l := (ofBytes source).starts) hnext
  refine ⟨_, (lineStart_succ _ line _).mpr hget, ?_⟩
  have hlater := (lt_line_iff hline hget).not.mp (Nat.lt_irrefl line)
  omega

theorem exists_lineOf_lineStart {source : Bytes} {line : Nat} (hpos : 1 ≤ line)
    (hcount : line ≤ (ofBytes source).lineCount) :
    ∃ start : Nat, (ofBytes source).lineStart line = .ok start ∧
      (ofBytes source).lineOf start = .ok line := by
  obtain ⟨k, rfl⟩ := Nat.exists_eq_add_of_le' hpos
  have hget := List.getElem?_eq_getElem (l := (ofBytes source).starts) hcount
  refine ⟨_, (lineStart_succ _ k _).mpr hget, ?_⟩
  have hlength := le_length_of_mem_starts (List.mem_of_getElem? hget)
  obtain ⟨k', start', hline, hget', hle⟩ :=
    exists_line source ⟨Int.natCast_nonneg _, Int.ofNat_le.mpr hlength⟩
  have hreached : k < k' + 1 := (lt_line_iff hline hget).mpr (Int.le_refl _)
  -- a later line would start behind this one
  have hsame : k' = k := by
    rcases Nat.lt_or_eq_of_le (Nat.le_of_lt_succ hreached) with hlt | heq
    · have hbehind := start_lt_start hlt hget hget'
      omega
    · exact heq.symm
  rw [hline, hsame]

theorem lineOf_length (source : Bytes) :
    (ofBytes source).lineOf source.length = .ok (ofBytes source).lineCount := by
  rw [lineOf_ofBytes, if_pos (by omega), List.filter_eq_self.mpr]
  · rfl
  · intro start hstart
    have hle := le_length_of_mem_starts hstart
    simpa using hle

/-- The table of a source of any bytes, told from its line breaks, of which there is
one list. Each offset of the source has a line, and only those; a line starts no
later than its offsets and before those of the next. -/
theorem lines_adjoint_to_starts (source : Bytes) :
    ∃ found : List Stretch,
      (∀ other, Scan lineBreaks source 0 other ↔ other = found) ∧
      (∀ offset : Int, 0 ≤ offset → offset ≤ source.length →
        (ofBytes source).lineOf offset =
          .ok (1 + found.countP fun s => (s.stop : Int) ≤ offset)) ∧
      (∀ offset : Int, offset < 0 ∨ source.length < offset →
        (ofBytes source).lineOf offset = .error (.outside offset source.length)) ∧
      (ofBytes source).starts.head? = some 0 ∧ (ofBytes source).starts.Pairwise (· < ·) ∧
      (∀ (offset : Int) (line : Nat), (ofBytes source).lineOf offset = .ok line →
        (∃ start : Nat, (ofBytes source).lineStart line = .ok start ∧ (start : Int) ≤ offset) ∧
        (line + 1 ≤ (ofBytes source).lineCount →
          ∃ next : Nat, (ofBytes source).lineStart (line + 1 : Nat) = .ok next ∧ offset < next)) ∧
      (∀ line : Nat, 1 ≤ line → line ≤ (ofBytes source).lineCount →
        ∃ start : Nat, (ofBytes source).lineStart line = .ok start ∧
          (ofBytes source).lineOf start = .ok line) ∧
      (ofBytes source).lineOf source.length = .ok (ofBytes source).lineCount := by
  obtain ⟨found, hfound⟩ := Scan.exists_from nil_not_mem_lineBreaks source 0
  refine ⟨found, fun _ => hfound.iff_eq, fun offset hlow hhigh => lineOf_of_scan hfound ⟨hlow, hhigh⟩,
    fun offset houtside => ?_, rfl, pairwise_starts source, fun offset line hline => ?_,
    fun line hpos hcount => exists_lineOf_lineStart hpos hcount, lineOf_length source⟩
  · rw [lineOf_ofBytes, if_neg (by omega)]
  · exact ⟨exists_lineStart_le hline, exists_lt_lineStart hline⟩

/-- The first bytes of a line separator without the last, a carriage return, and a
carriage return with a line feed at the end. -/
def brokenBytes : Bytes :=
  [0xE2, 0x80, 0x0D, 0x0D, 0x0A]

theorem scan_brokenBytes : Scan lineBreaks brokenBytes 0 [⟨2, 3⟩, ⟨3, 5⟩] := by
  have hreturn : wordAt? lineBreaks brokenBytes 2 = some [0x0D] := by decide
  have hboth : wordAt? lineBreaks brokenBytes 3 = some [0x0D, 0x0A] := by decide
  have hend : Scan lineBreaks brokenBytes 5 [] := .atEnd nil_not_mem_lineBreaks (Nat.le_refl 5)
  exact .skip (by decide) (.skip (by decide) (.hit hreturn (.hit hboth hend)))

/-- The offset inside the last line break lies on the second line, the end of the
source on the third. -/
theorem lines_adjoint_brokenBytes :
    (ofBytes brokenBytes).lineOf 4 = .ok 2 ∧ (ofBytes brokenBytes).lineOf 5 = .ok 3 ∧
      (ofBytes brokenBytes).lineOf 6 = .error (.outside 6 5) ∧
      (∃ start : Nat, (ofBytes brokenBytes).lineStart 2 = .ok start ∧ (start : Int) ≤ 4) ∧
      (∃ next : Nat, (ofBytes brokenBytes).lineStart 3 = .ok next ∧ (4 : Int) < next) ∧
      ∃ start : Nat, (ofBytes brokenBytes).lineStart 2 = .ok start ∧
        (ofBytes brokenBytes).lineOf start = .ok 2 := by
  obtain ⟨found, hfound, hline, houtside, -, -, hlines, hself, -⟩ :=
    lines_adjoint_to_starts brokenBytes
  obtain rfl := (hfound _).mp scan_brokenBytes
  have hcount : (ofBytes brokenBytes).lineCount = 3 := by
    rw [lineCount, starts_of_scan scan_brokenBytes]
    rfl
  have hfour : (ofBytes brokenBytes).lineOf 4 = .ok 2 := hline 4 (by decide) (by decide)
  have hfive : (ofBytes brokenBytes).lineOf 5 = .ok 3 := hline 5 (by decide) (by decide)
  obtain ⟨hstart, hnext⟩ := hlines 4 2 hfour
  exact ⟨hfour, hfive, houtside 6 (by decide), hstart, hnext (by omega),
    hself 2 (by decide) (by omega)⟩

end LineTable

def Text.terminators : List (List Char) :=
  [['\r', '\n'], ['\r'], ['\n'], ['\u0085'], ['\u2028'], ['\u2029']]

theorem Text.map_encodeChars_terminators : terminators.map Utf8.encodeChars = lineBreaks := by
  decide

namespace LineTable

/-- The lines of a text start at its first byte and behind the bytes of each of its
line terminators, of which there is one list. The line breaks of the bytes are the
bytes of these terminators and nothing else, and the line of a character counts the
terminators that end no later. -/
theorem starts_behind_terminators (text : String) :
    ∃ found : List Stretch,
      (∀ other, Scan Text.terminators text.toList 0 other ↔ other = found) ∧
      (∀ other, Scan lineBreaks (Utf8.encode text) 0 other ↔
        other = found.map (Stretch.inBytes text.toList)) ∧
      (ofBytes (Utf8.encode text)).starts =
        0 :: found.map (fun s => byteOffset text.toList s.stop) ∧
      ∀ place ≤ text.toList.length,
        (ofBytes (Utf8.encode text)).lineOf (byteOffset text.toList place) =
          .ok (1 + found.countP fun s => s.stop ≤ place) := by
  have hwords : [] ∉ Text.terminators := by decide
  obtain ⟨found, hfound⟩ := Scan.exists_from hwords text.toList 0
  have hbytes : Scan lineBreaks (Utf8.encode text) 0 (found.map (Stretch.inBytes text.toList)) := by
    rw [← Text.map_encodeChars_terminators]
    exact hfound.inBytes hwords
  refine ⟨found, fun _ => hfound.iff_eq, fun _ => hbytes.iff_eq, ?_, fun place hplace => ?_⟩
  · rw [starts_of_scan hbytes, List.map_map]
    rfl
  · have hoffset := Text.byteOffset_le_length text.toList place
    rw [lineOf_of_scan hbytes ⟨Int.natCast_nonneg _, Int.ofNat_le.mpr hoffset⟩, List.countP_map]
    congr 2
    refine List.countP_congr fun s hs => ?_
    have hstop := hfound.stop_le hwords s hs
    simp only [Function.comp_apply, decide_eq_true_eq, Int.ofNat_le]
    exact Text.byteOffset_le_iff hstop

/-- A next-line character behind a character with the same first byte, and a carriage
return with a line feed behind a character that begins like a line separator. -/
def sharedBytes : String :=
  "©\u0085…\r\n"

theorem starts_behind_terminators_sharedBytes :
    (∀ other, Scan lineBreaks (Utf8.encode sharedBytes) 0 other ↔ other = [⟨2, 4⟩, ⟨7, 9⟩]) ∧
      (ofBytes (Utf8.encode sharedBytes)).starts = [0, 4, 9] ∧
      (ofBytes (Utf8.encode sharedBytes)).lineOf 7 = .ok 2 ∧
      (ofBytes (Utf8.encode sharedBytes)).lineOf 9 = .ok 3 := by
  have hscan : Scan Text.terminators sharedBytes.toList 0 [⟨1, 2⟩, ⟨3, 5⟩] := by
    have hnextLine : wordAt? Text.terminators sharedBytes.toList 1 = some ['\u0085'] := by decide
    have hboth : wordAt? Text.terminators sharedBytes.toList 3 = some ['\r', '\n'] := by decide
    have hend : Scan Text.terminators sharedBytes.toList 5 [] := .atEnd (by decide) (by decide)
    exact .skip (by decide) (.hit hnextLine (.skip (by decide) (.hit hboth hend)))
  obtain ⟨found, hfound, hbytes, hstarts, hlines⟩ := starts_behind_terminators sharedBytes
  obtain rfl := (hfound _).mp hscan
  exact ⟨hbytes, hstarts, hlines 3 (by decide), hlines 5 (by decide)⟩

end LineTable

end CSharpAudit
