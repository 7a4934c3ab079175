import CSharpAudit.Proofs.Text.Utf8
import CSharpAudit.Proofs.Source.LineTable
import CSharpAudit.Tree.Basic

/-!
Positions in a source. Every offset of a source lies on a line of its table
that starts no later, its column counts what is read between the two, and
positions keep the order of the offsets. Nothing here asks the source to be
well-formed UTF-8 or the offsets to be character boundaries.
-/

namespace CSharpAudit

theorem Span.clamp_of_le {length k : Nat} (hk : k ≤ length) : clamp length k = k := by
  have hnonneg : ¬ (k : Int) < 0 := by omega
  simp only [clamp, hnonneg, if_false, Int.toNat_natCast, Nat.min_eq_left hk]

theorem Span.slice_of_le {source : Bytes} {i j : Nat} (hi : i ≤ source.length)
    (hj : j ≤ source.length) :
    Span.slice ⟨i, j⟩ source = (source.drop i).take (j - i) := by
  simp only [slice, clamp_of_le hi, clamp_of_le hj]

namespace Tree

/-- The line of a span and its column, told from the start of that line. -/
theorem exists_position (t : Tree) (s : Nat) (stop : Int) (hs : s ≤ t.source.length) :
    ∃ k start : Nat, t.lines.starts[k]? = some start ∧ start ≤ s ∧
      t.lineOf ⟨s, stop⟩ = .ok (k + 1) ∧
      t.columnOf ⟨s, stop⟩ =
        .ok ((Utf8.decodeChars ((t.source.drop start).take (s - start))).length + 1) := by
  have hoffset : 0 ≤ (s : Int) ∧ (s : Int) ≤ t.source.length := by omega
  obtain ⟨k, start, hline, hget, hle⟩ := LineTable.exists_line t.source hoffset
  have hstart := (LineTable.lineStart_succ t.lines k start).mpr hget
  have hle : start ≤ s := by omega
  refine ⟨k, start, hget, hle, hline, ?_⟩
  have htext : (Span.text ⟨start, s⟩ t.source).length =
      (Utf8.decodeChars ((t.source.drop start).take (s - start))).length := by
    rw [Span.text, Span.slice_of_le (hle.trans hs) hs, Utf8.decode, String.length_ofList]
  simp only [columnOf, lines, hline]
  change (t.lines.lineStart (k + 1 : Nat) >>= _) = _
  rw [hstart, ← htext]
  rfl

theorem exists_lineOf_columnOf (t : Tree) {s : Span}
    (hs : 0 ≤ s.start ∧ s.start ≤ t.source.length) :
    ∃ line column : Nat, t.lineOf s = .ok line ∧ t.columnOf s = .ok column := by
  obtain ⟨start, stop⟩ := s
  obtain ⟨offset, rfl⟩ := Int.eq_ofNat_of_zero_le hs.1
  obtain ⟨k, _, -, -, hline, hcolumn⟩ := t.exists_position offset stop (Int.ofNat_le.mp hs.2)
  exact ⟨_, _, hline, hcolumn⟩

/-- A later start has a later line, or the same line and no smaller column. -/
theorem position_mono {t : Tree} {a b : Span} {la ca lb cb : Nat} (hab : a.start ≤ b.start)
    (hla : t.lineOf a = .ok la) (hca : t.columnOf a = .ok ca)
    (hlb : t.lineOf b = .ok lb) (hcb : t.columnOf b = .ok cb) :
    la < lb ∨ la = lb ∧ ca ≤ cb := by
  obtain ⟨a, stop⟩ := a
  obtain ⟨b, stop'⟩ := b
  obtain ⟨⟨ha, hrange⟩, -⟩ := LineTable.lineOf_eq_ok_iff.mp hla
  obtain ⟨⟨hb, hrange'⟩, -⟩ := LineTable.lineOf_eq_ok_iff.mp hlb
  change a ≤ b at hab
  change a ≤ t.source.length at hrange
  change b ≤ t.source.length at hrange'
  rcases Nat.lt_or_eq_of_le (LineTable.lineOf_mono hab hla hlb) with hlt | rfl
  · exact .inl hlt
  · obtain ⟨a, rfl⟩ := Int.eq_ofNat_of_zero_le ha
    obtain ⟨b, rfl⟩ := Int.eq_ofNat_of_zero_le hb
    obtain ⟨k, start, hget, -, hline, hcolumn⟩ := t.exists_position a stop (by omega)
    obtain ⟨k', start', hget', -, hline', hcolumn'⟩ := t.exists_position b stop' (by omega)
    rw [hline] at hla
    rw [hline'] at hlb
    obtain rfl : k = k' := by
      injection hla
      injection hlb
      omega
    obtain rfl : start = start' := Option.some.inj (hget.symm.trans hget')
    rw [hcolumn, Except.ok.injEq] at hca
    rw [hcolumn', Except.ok.injEq] at hcb
    -- on one line, both columns count what is read from the same start
    have hread := Utf8.length_decodeChars_take_le (t.source.drop start)
      (j := a - start) (k := b - start) (by omega)
    exact .inr ⟨rfl, by omega⟩

end Tree

end CSharpAudit
