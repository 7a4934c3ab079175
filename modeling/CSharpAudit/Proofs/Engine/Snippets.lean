import CSharpAudit.Proofs.Engine.Analysis
import CSharpAudit.Proofs.Text.Lines
import CSharpAudit.Proofs.Tree.Spans

/-!
Findings lead back to their snippets. Whoever splits the text into lines and
goes to the line and the column of a finding stands in front of its snippet,
at the byte where the matched node starts.
-/

namespace CSharpAudit

/-- A finding that leads to the bytes from `s` up to `e` of a text. Its line is
one of the lines of the text. The suffix of the text that begins as many
characters after the start of that line as the column tells begins with the
snippet and starts at byte `s`. The bytes of the snippet are those from `s` up
to `e`. -/
def Finding.PointsAt (f : Finding) (text : List Char) (s e : Nat) : Prop :=
  ∃ (line column : Nat) (before suffix : List Char),
    f.line = line + 1 ∧ f.column = column + 1 ∧ line < (Text.lines text).length ∧
    text = before ++ suffix ∧
    before.length = ((Text.lines text).take line).flatten.length + column ∧
    f.snippet.toList <+: suffix ∧
    (Utf8.encodeChars before).length = s ∧
    Utf8.encode f.snippet = ((Utf8.encodeChars text).take e).drop s

theorem Rule.finding_pointsAt {r : Rule} {root n : Node} {text : List Char} {f : Finding}
    (hstart : Utf8.IsBoundary text n.span.start) (hstop : Utf8.IsBoundary text n.span.stop)
    (hf : r.finding { root, source := Utf8.encodeChars text } n = .ok f) :
    ∃ s e : Nat, n.span = ⟨s, e⟩ ∧ f.PointsAt text s e := by
  obtain ⟨before, suffix, rfl, hs⟩ := hstart
  let tree : Tree := { root, source := Utf8.encodeChars (before ++ suffix) }
  obtain ⟨e, he⟩ := Int.eq_ofNat_of_zero_le hstop.le_length.1
  have hspan : n.span = ⟨(Utf8.encodeChars before).length, e⟩ := by
    rw [← hs, ← he]
  rw [he] at hstop
  have hs : (Utf8.encodeChars before).length ≤ tree.source.length := by
    simp [tree]
  have he : e ≤ tree.source.length := by
    have hwithin := hstop.le_length.2
    exact Int.ofNat_le.mp hwithin
  refine ⟨_, _, hspan, ?_⟩
  obtain ⟨line, column, hline, hcolumn, rfl⟩ := Rule.finding_eq_ok_iff.mp hf
  -- `before` goes on from the start of the line, which gives the column
  obtain ⟨k, start, hget, hle, hline', hcolumn'⟩ := tree.exists_position _ e hs
  rw [hspan, hline', Except.ok.injEq] at hline
  rw [hspan, hcolumn', Except.ok.injEq] at hcolumn
  obtain ⟨inLine, hk, hbefore, hread⟩ := Text.exists_inLine hget hle
  change (tree.source.drop start).take ((Utf8.encodeChars before).length - start) = _ at hread
  rw [hread, Utf8.decodeChars_encodeChars] at hcolumn
  -- the snippet is what stands between the two boundaries
  obtain ⟨between, hbetween, hbytes⟩ := hstop.exists_between
  have hsnippet : tree.textOf n.span = String.ofList between := by
    rw [Tree.textOf, Span.text, hspan, Span.slice_of_le hs he]
    change Utf8.decode (((Utf8.encodeChars (before ++ suffix)).drop _).take _) = _
    rw [hbytes, Utf8.decode, Utf8.decodeChars_encodeChars]
  refine ⟨k, inLine.length, before, suffix, by simp [← hline], by simp [← hcolumn], hk, rfl,
    ?_, ?_, rfl, ?_⟩
  · exact (congrArg List.length hbefore).trans List.length_append
  · change (tree.textOf n.span).toList <+: suffix
    rw [hsnippet, String.toList_ofList]
    exact hbetween
  · change Utf8.encode (tree.textOf n.span) = _
    rw [hsnippet, Utf8.encode, String.toList_ofList, List.drop_take, hbytes]

/-- Every finding points at its snippet. What a grammar has read without damage
is asked to begin and end on character boundaries, and nothing else. -/
theorem Engine.findings_point_at_snippets (grammar : Grammar) (text : String) (rules : List Rule)
    (hsound : (grammar (Tree.sourceOf text)).damaged = false)
    (hbounds : ∀ c ∈ (grammar (Tree.sourceOf text)).preorder,
      Utf8.IsBoundary (withoutMark text).toList c.span.start ∧
        Utf8.IsBoundary (withoutMark text).toList c.span.stop) :
    ∃ tree report, Tree.parse grammar text = .ok tree ∧
      Engine.analyze ⟨rules⟩ tree = .ok report ∧
      List.Forall₂
        (fun (m : Rule × Node) f => m.1.finding tree m.2 = .ok f ∧
          ∃ s e : Nat, m.2.span = ⟨s, e⟩ ∧ f.PointsAt (withoutMark text).toList s e)
        (Engine.matchedPairs ⟨rules⟩ tree) report.findings := by
  let tree : Tree :=
    { root := Node.ofConcrete (Tree.sourceOf text) (grammar (Tree.sourceOf text))
      source := Tree.sourceOf text }
  have hparse : Tree.parse grammar text = .ok tree := Tree.parse_eq_ok hsound
  have hnodes := Node.bounds_ofConcrete (Tree.sourceOf text) hbounds
  obtain ⟨blocks, hblocks⟩ := Engine.exists_blocks ⟨rules⟩ tree
    fun n hn => (hnodes n hn).1.le_length
  refine ⟨tree, ⟨blocks.flatten⟩, hparse,
    Engine.analyze_eq_ok_iff.mpr ⟨blocks, hblocks, rfl⟩, ?_⟩
  have hmatched : ∀ m ∈ Engine.matchedPairs ⟨rules⟩ tree,
      Utf8.IsBoundary (withoutMark text).toList m.2.span.start ∧
        Utf8.IsBoundary (withoutMark text).toList m.2.span.stop :=
    fun m hm => hnodes m.2 (Engine.mem_preorder_of_mem_matchedPairs hm)
  have hfindings := Engine.forall₂_matchedPairs hblocks
  refine ((List.forall₂_and_left _ _).mpr ⟨hmatched, hfindings⟩).imp ?_
  rintro m f ⟨⟨hstart, hstop⟩, hf⟩
  exact ⟨hf, Rule.finding_pointsAt hstart hstop hf⟩

/-- A tree over `é`, a line break of two characters, `𝒳 y`, a line separator and
`z`. One name is the second half of the first line break and one goes across the
separator. -/
def namesBetweenSeparators : Concrete.Node :=
  .branch "compilation_unit" ⟨0, 14⟩
    [.branch "identifier" ⟨3, 4⟩ [],
     .branch "block" ⟨4, 14⟩ [.branch "identifier" ⟨4, 8⟩ [], .branch "identifier" ⟨9, 14⟩ []]]

/-- Behind a byte-order mark, all three names are found where they are. -/
theorem Engine.findings_point_namesBetweenSeparators :
    ∃ tree report,
      Tree.parse (fun _ => namesBetweenSeparators) "\uFEFFé\r\n𝒳 y\u2028z" = .ok tree ∧
      Engine.analyze ⟨[.forKind "Names" "names" "Name" .identifier none]⟩ tree = .ok report ∧
      report.findings.length = 3 ∧
      ∀ f ∈ report.findings, ∃ s e, f.PointsAt "é\r\n𝒳 y\u2028z".toList s e := by
  obtain ⟨tree, report, hparse, hreport, hfindings⟩ :=
    Engine.findings_point_at_snippets (fun _ => namesBetweenSeparators)
      "\uFEFFé\r\n𝒳 y\u2028z" [.forKind "Names" "names" "Name" .identifier none] rfl (by decide)
  obtain rfl := Except.ok.inj (hparse.symm.trans (Tree.parse_eq_ok rfl))
  refine ⟨_, report, hparse, hreport, ?_, fun f hf => ?_⟩
  · rw [← hfindings.length_eq]
    simp only [Engine.matchedPairs, Rule.matchedNodes_eq]
    decide
  · obtain ⟨i, hi, rfl⟩ := List.getElem_of_mem hf
    obtain ⟨-, s, e, -, hpoints⟩ := hfindings.get (hfindings.length_eq ▸ hi) hi
    exact ⟨s, e, hpoints⟩

end CSharpAudit
