import CSharpAudit.Proofs.Source.Position
import CSharpAudit.Proofs.Text.Lines

/-!
The order of positions in a text. Over any bytes a later offset has no earlier
position. Over the bytes of a text lines start on character boundaries, so between
two boundaries of one line stand whole characters, and the column counts each of
them: the positions of boundaries are ordered exactly as the boundaries are.
-/

namespace CSharpAudit

namespace Tree

/-- The position of a boundary, told by the characters before it: those of the
lines before its own, and those of its own line. -/
theorem exists_position_of_append (root : Node) (before after : List Char) (stop : Int) :
    ∃ (k : Nat) (inLine : List Char),
      before = ((Text.lines (before ++ after)).take k).flatten ++ inLine ∧
      lineOf ⟨root, Utf8.encodeChars (before ++ after)⟩
        ⟨(Utf8.encodeChars before).length, stop⟩ = .ok (k + 1) ∧
      columnOf ⟨root, Utf8.encodeChars (before ++ after)⟩
        ⟨(Utf8.encodeChars before).length, stop⟩ = .ok (inLine.length + 1) := by
  have hwithin :
      (Utf8.encodeChars before).length ≤ (Utf8.encodeChars (before ++ after)).length := by
    rw [Utf8.encodeChars_append, List.length_append]
    omega
  obtain ⟨k, start, hget, hle, hline, hcolumn⟩ :=
    exists_position ⟨root, Utf8.encodeChars (before ++ after)⟩ _ stop hwithin
  obtain ⟨inLine, -, hbefore, hread⟩ := Text.exists_inLine hget hle
  refine ⟨k, inLine, hbefore, hline, ?_⟩
  rw [hcolumn, hread, Utf8.decodeChars_encodeChars]

theorem position_lt {text : List Char} {root : Node} {a b : Span} {la ca lb cb : Nat}
    (ha : Utf8.IsBoundary text a.start) (hb : Utf8.IsBoundary text b.start)
    (hab : a.start < b.start)
    (hla : lineOf ⟨root, Utf8.encodeChars text⟩ a = .ok la)
    (hca : columnOf ⟨root, Utf8.encodeChars text⟩ a = .ok ca)
    (hlb : lineOf ⟨root, Utf8.encodeChars text⟩ b = .ok lb)
    (hcb : columnOf ⟨root, Utf8.encodeChars text⟩ b = .ok cb) :
    la < lb ∨ la = lb ∧ ca < cb := by
  rcases position_mono (Int.le_of_lt hab) hla hca hlb hcb with hlt | ⟨rfl, -⟩
  · exact .inl hlt
  refine .inr ⟨rfl, ?_⟩
  obtain ⟨a, stop⟩ := a
  obtain ⟨b, stop'⟩ := b
  obtain ⟨before, after, rfl, rfl⟩ := ha
  obtain ⟨before', after', htext, rfl⟩ := hb
  -- the later boundary goes on where the earlier one is, by one character at least
  have hlt : (Utf8.encodeChars before).length < (Utf8.encodeChars before').length :=
    Int.ofNat_lt.mp hab
  obtain ⟨between, rfl, rfl⟩ :=
    Utf8.exists_eq_append_of_length_encodeChars_le htext (Nat.le_of_lt hlt)
  have hbetween : 0 < between.length := by
    apply List.length_pos_iff.mpr
    rintro rfl
    simp at hlt
  obtain ⟨k, inLine, hbefore, hline, hcolumn⟩ :=
    exists_position_of_append root before (between ++ after') stop
  obtain ⟨k', inLine', hbefore', hline', hcolumn'⟩ :=
    exists_position_of_append root (before ++ between) after' stop'
  rw [List.append_assoc] at hbefore' hline' hcolumn'
  obtain rfl : k = k' := by
    have hk := Except.ok.inj (hline.symm.trans hla)
    have hk' := Except.ok.inj (hline'.symm.trans hlb)
    omega
  have hinLine : inLine ++ between = inLine' := by
    apply List.append_cancel_left
    rw [← List.append_assoc, ← hbefore]
    exact hbefore'
  have hca := Except.ok.inj (hcolumn.symm.trans hca)
  have hcb := Except.ok.inj (hcolumn'.symm.trans hcb)
  rw [← hinLine, List.length_append] at hcb
  omega

/-- Positions keep the order of offsets. Between character boundaries they keep it
strictly, so two boundaries have one position only if they are one. -/
theorem positions_keep_order {t : Tree} {text : String} (ht : t.source = Utf8.encode text)
    {a b : Span} (ha : 0 ≤ a.start) (hab : a.start ≤ b.start) (hb : b.start ≤ t.source.length) :
    ∃ la ca lb cb : Nat,
      t.lineOf a = .ok la ∧ t.columnOf a = .ok ca ∧ t.lineOf b = .ok lb ∧ t.columnOf b = .ok cb ∧
      (la < lb ∨ la = lb ∧ ca ≤ cb) ∧
      (Utf8.IsBoundary text.toList a.start → Utf8.IsBoundary text.toList b.start →
        (a.start < b.start ↔ la < lb ∨ la = lb ∧ ca < cb) ∧
        (a.start = b.start ↔ (la, ca) = (lb, cb))) := by
  obtain ⟨la, ca, hla, hca⟩ := t.exists_lineOf_columnOf ⟨ha, Int.le_trans hab hb⟩
  obtain ⟨lb, cb, hlb, hcb⟩ := t.exists_lineOf_columnOf ⟨Int.le_trans ha hab, hb⟩
  refine ⟨la, ca, lb, cb, hla, hca, hlb, hcb, position_mono hab hla hca hlb hcb, ?_⟩
  intro hboundary hboundary'
  obtain ⟨root, source⟩ := t
  obtain rfl : source = Utf8.encode text := ht
  have hstrict (hlt : a.start < b.start) : la < lb ∨ la = lb ∧ ca < cb :=
    position_lt hboundary hboundary' hlt hla hca hlb hcb
  have hsame (heq : a.start = b.start) : la = lb ∧ ca = cb := by
    rw [lineOf, heq, ← lineOf] at hla
    rw [columnOf, heq, ← columnOf] at hca
    exact ⟨Except.ok.inj (hla.symm.trans hlb), Except.ok.inj (hca.symm.trans hcb)⟩
  rw [Prod.mk.injEq]
  omega

def brokenLine : Tree where
  root :=
    { kind := .compilationUnit, span := ⟨0, 4⟩, type := "compilation_unit", field := none,
      name := none, modifiers := [], inferred := false, children := [] }
  source := Utf8.encode "é\r\n"

/-- The places before, inside and behind the line break have three positions, in
this order. -/
theorem positions_keep_order_brokenLine :
    ∃ la ca lb cb lc cc : Nat,
      brokenLine.lineOf ⟨2, 2⟩ = .ok la ∧ brokenLine.columnOf ⟨2, 2⟩ = .ok ca ∧
      brokenLine.lineOf ⟨3, 4⟩ = .ok lb ∧ brokenLine.columnOf ⟨3, 4⟩ = .ok cb ∧
      brokenLine.lineOf ⟨4, 4⟩ = .ok lc ∧ brokenLine.columnOf ⟨4, 4⟩ = .ok cc ∧
      (la < lb ∨ la = lb ∧ ca < cb) ∧ (lb < lc ∨ lb = lc ∧ cb < cc) := by
  have hsource : brokenLine.source = Utf8.encode "é\r\n" := rfl
  obtain ⟨la, ca, lb, cb, hla, hca, hlb, hcb, -, hstrict⟩ :=
    positions_keep_order (a := ⟨2, 2⟩) (b := ⟨3, 4⟩) hsource (by decide) (by decide) (by decide)
  obtain ⟨lb', cb', lc, cc, hlb', hcb', hlc, hcc, -, hstrict'⟩ :=
    positions_keep_order (a := ⟨3, 4⟩) (b := ⟨4, 4⟩) hsource (by decide) (by decide) (by decide)
  obtain rfl := Except.ok.inj (hlb.symm.trans hlb')
  obtain rfl := Except.ok.inj (hcb.symm.trans hcb')
  refine ⟨la, ca, lb, cb, lc, cc, hla, hca, hlb, hcb, hlc, hcc, ?_, ?_⟩
  · exact (hstrict (by decide) (by decide)).1.mp (by decide)
  · exact (hstrict' (by decide) (by decide)).1.mp (by decide)

end Tree

end CSharpAudit
