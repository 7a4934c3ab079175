import CSharpAudit.Proofs.Engine.Analysis
import CSharpAudit.Proofs.Tree.Spans

/-!
How a run of the engine ends. All matches, by rule and then in pre-order, are
turned into findings one after the other, and the first match that starts
outside the source stops the run. Nodes that no rule matches may lie anywhere,
and so may the ends of all nodes.
-/

namespace CSharpAudit

theorem mapM_eq_of_find? {α β ε : Type} {f : α → Except ε β} {fails : α → Bool} {error : α → ε}
    {items : List α} (hfails : ∀ a ∈ items, fails a = true → f a = .error (error a))
    (hworks : ∀ a ∈ items, fails a = false → ∃ b, f a = .ok b) :
    match items.find? fails with
    | some a => items.mapM f = .error (error a)
    | none => ∃ results, items.mapM f = .ok results := by
  induction items with
  | nil => exact ⟨[], rfl⟩
  | cons a rest ih =>
      obtain ⟨hfail, hfails⟩ := List.forall_mem_cons.mp hfails
      obtain ⟨hwork, hworks⟩ := List.forall_mem_cons.mp hworks
      cases ha : fails a with
      | true =>
          rw [List.find?_cons_of_pos ha]
          simp only [List.mapM_cons, hfail ha]
          rfl
      | false =>
          rw [List.find?_cons_of_neg (by simp [ha])]
          obtain ⟨b, hb⟩ := hwork ha
          have hrest := ih hfails hworks
          split at hrest
          · simp only [List.mapM_cons, hb, hrest]
            rfl
          · obtain ⟨results, hrest⟩ := hrest
            refine ⟨b :: results, ?_⟩
            simp only [List.mapM_cons, hb, hrest]
            rfl

def Tree.startsOutside (t : Tree) (n : Node) : Bool :=
  n.span.start < 0 || t.source.length < n.span.start

theorem Tree.startsOutside_iff {t : Tree} {n : Node} :
    t.startsOutside n = true ↔ n.span.start < 0 ∨ t.source.length < n.span.start := by
  simp [startsOutside]

theorem Tree.startsOutside_eq_false_iff {t : Tree} {n : Node} :
    t.startsOutside n = false ↔ 0 ≤ n.span.start ∧ n.span.start ≤ t.source.length := by
  simp [startsOutside]

namespace Rule

theorem finding_of_startsOutside (r : Rule) {t : Tree} {n : Node}
    (h : t.startsOutside n = true) :
    r.finding t n = .error (.outside n.span.start t.source.length) := by
  have hrange : ¬ (0 ≤ n.span.start ∧ n.span.start ≤ t.source.length) := by
    have houtside := Tree.startsOutside_iff.mp h
    omega
  have hline : t.lineOf n.span = .error (.outside n.span.start t.source.length) := by
    rw [Tree.lineOf, Tree.lines, LineTable.lineOf_ofBytes, if_neg hrange]
  rw [finding, hline]
  rfl

theorem bounds_of_finding {r : Rule} {t : Tree} {n : Node} {f : Finding}
    (h : r.finding t n = .ok f) :
    1 ≤ f.line ∧ f.line ≤ t.lines.lineCount ∧ 1 ≤ f.column := by
  obtain ⟨line, column, hline, hcolumn, rfl⟩ := finding_eq_ok_iff.mp h
  obtain ⟨⟨hstart, hstop⟩, hcount⟩ := LineTable.lineOf_eq_ok_iff.mp hline
  have hlast : line ≤ t.lines.lineCount := hcount ▸ List.length_filter_le _ _
  change n.span.start ≤ t.source.length at hstop
  obtain ⟨s, hs⟩ := Int.eq_ofNat_of_zero_le hstart
  obtain ⟨k, start, -, -, hline', hcolumn'⟩ := t.exists_position s n.span.stop (by omega)
  have hspan : n.span = ⟨s, n.span.stop⟩ := by rw [← hs]
  rw [hspan, hline', Except.ok.injEq] at hline
  rw [hspan, hcolumn', Except.ok.injEq] at hcolumn
  change 1 ≤ (line : Int) ∧ (line : Int) ≤ t.lines.lineCount ∧ 1 ≤ (column : Int)
  omega

end Rule

theorem mapM_flatten {α β γ ε : Type} (items : List α) (g : α → List β)
    (f : α → β → Except ε γ) :
    List.flatten <$> items.mapM (fun a => (g a).mapM (f a)) =
      (items.flatMap fun a => (g a).map fun b => (a, b)).mapM fun m => f m.1 m.2 := by
  induction items with
  | nil => rfl
  | cons a rest ih =>
      rw [List.flatMap_cons, List.mapM_append, ← ih, List.mapM_map, List.mapM_cons]
      simp [Function.comp_def]

namespace Engine

theorem matchedPairs_eq (rules : List Rule) (t : Tree) :
    matchedPairs ⟨rules⟩ t =
      rules.flatMap fun r =>
        (t.root.preorder.tail.filter fun n => n.kind == r.kind && r.matches? n).map
          fun n => (r, n) := by
  simp only [matchedPairs, Rule.matchedNodes_eq, Node.preorder_eq, List.tail_cons,
    Node.strictlyBelow]

theorem mem_matchedPairs {rules : List Rule} {t : Tree} {r : Rule} {n : Node} :
    (r, n) ∈ matchedPairs ⟨rules⟩ t ↔
      r ∈ rules ∧ n ∈ t.root.preorder.tail ∧ n.kind = r.kind ∧ r.matches? n = true := by
  simp only [matchedPairs_eq, List.mem_flatMap, List.mem_map, List.mem_filter, Prod.mk.injEq,
    Bool.and_eq_true, beq_iff_eq]
  constructor
  · rintro ⟨r, hr, n, hn, rfl, rfl⟩
    exact ⟨hr, hn⟩
  · rintro ⟨hr, hn⟩
    exact ⟨r, hr, n, hn, rfl, rfl⟩

/-- A run makes one finding after the other, over all matches in order. -/
theorem analyze_eq_mapM (rules : List Rule) (t : Tree) :
    analyze ⟨rules⟩ t =
      Report.mk <$> (matchedPairs ⟨rules⟩ t).mapM fun m => m.1.finding t m.2 := by
  have hflat := mapM_flatten rules (fun r => r.matchedNodes t) fun r n => r.finding t n
  rw [matchedPairs, ← hflat]
  simp [analyze, blocks, Rule.detect]

theorem analyze_of_find? (rules : List Rule) (t : Tree) :
    match (matchedPairs ⟨rules⟩ t).find? (fun m => t.startsOutside m.2) with
    | some m => analyze ⟨rules⟩ t = .error (.outside m.2.span.start t.source.length)
    | none => ∃ report, analyze ⟨rules⟩ t = .ok report := by
  have hsteps := mapM_eq_of_find? (f := fun (m : Rule × Node) => m.1.finding t m.2)
    (fun m (_ : m ∈ matchedPairs ⟨rules⟩ t) hm => m.1.finding_of_startsOutside hm)
    (fun m _ hm => m.1.exists_finding t (Tree.startsOutside_eq_false_iff.mp hm))
  rw [analyze_eq_mapM]
  split
  · next hfind =>
    rw [hfind] at hsteps
    rw [hsteps]
    rfl
  · next hfind =>
    rw [hfind] at hsteps
    obtain ⟨findings, hfindings⟩ := hsteps
    exact ⟨⟨findings⟩, by rw [hfindings]; rfl⟩

theorem bounds_of_mem_findings {rules : List Rule} {t : Tree} {report : Report} {f : Finding}
    (h : analyze ⟨rules⟩ t = .ok report) (hf : f ∈ report.findings) :
    1 ≤ f.line ∧ f.line ≤ t.lines.lineCount ∧ 1 ≤ f.column := by
  obtain ⟨blocks, hblocks, hreport⟩ := analyze_eq_ok_iff.mp h
  rw [hreport] at hf
  obtain ⟨i, hi, rfl⟩ := List.getElem_of_mem hf
  have hfindings := forall₂_matchedPairs hblocks
  exact Rule.bounds_of_finding (hfindings.get (hfindings.length_eq ▸ hi) hi)

/-- A run fails exactly if some rule matches a node below the root that starts
outside the source. The error then names the start of the first such match, by
rule and then in pre-order. All other runs give a report, and the places in it
are places of the source. What has been parsed from nodes that start inside the
source is always analysed. -/
theorem analyze_fails_on_first_match_outside :
    (∀ (rules : List Rule) (t : Tree),
      ((∃ error, analyze ⟨rules⟩ t = .error error) ↔
        ∃ r ∈ rules, ∃ n ∈ t.root.preorder.tail, n.kind = r.kind ∧ r.matches? n = true ∧
          (n.span.start < 0 ∨ t.source.length < n.span.start)) ∧
      match (rules.flatMap fun r =>
          (t.root.preorder.tail.filter fun n => n.kind == r.kind && r.matches? n).map
            fun n => (r, n)).find? (fun m => t.startsOutside m.2) with
      | some (_, n) => analyze ⟨rules⟩ t = .error (.outside n.span.start t.source.length)
      | none => ∃ report, analyze ⟨rules⟩ t = .ok report ∧
          ∀ f ∈ report.findings, 1 ≤ f.line ∧ f.line ≤ t.lines.lineCount ∧ 1 ≤ f.column) ∧
    ∀ (grammar : Grammar) (text : String) (rules : List Rule),
      (grammar (Tree.sourceOf text)).damaged = false →
      (∀ c ∈ (grammar (Tree.sourceOf text)).preorder,
        0 ≤ c.span.start ∧ c.span.start ≤ (Tree.sourceOf text).length) →
      ∃ tree report, Tree.parse grammar text = .ok tree ∧
        analyze ⟨rules⟩ tree = .ok report := by
  refine ⟨fun rules t => ?_, fun grammar text rules hsound hstarts => ?_⟩
  · have hrun := analyze_of_find? rules t
    rw [← matchedPairs_eq]
    cases hfind : (matchedPairs ⟨rules⟩ t).find? (fun m => t.startsOutside m.2) with
    | some m =>
        rw [hfind] at hrun
        refine ⟨iff_of_true ⟨_, hrun⟩ ?_, hrun⟩
        obtain ⟨hr, hn, hkind, hmatches⟩ := mem_matchedPairs.mp (List.mem_of_find?_eq_some hfind)
        have houtside := List.find?_some hfind
        exact ⟨m.1, hr, m.2, hn, hkind, hmatches, Tree.startsOutside_iff.mp houtside⟩
    | none =>
        rw [hfind] at hrun
        obtain ⟨report, hreport⟩ := hrun
        refine ⟨iff_of_false ?_ ?_, report, hreport, fun f hf => bounds_of_mem_findings hreport hf⟩
        · rintro ⟨error, herror⟩
          rw [hreport] at herror
          contradiction
        · rintro ⟨r, hr, n, hn, hkind, hmatches, houtside⟩
          exact List.find?_eq_none.mp hfind (r, n) (mem_matchedPairs.mpr ⟨hr, hn, hkind, hmatches⟩)
            (Tree.startsOutside_iff.mpr houtside)
  · have hnodes := Node.bounds_ofConcrete
      (P := fun start => 0 ≤ start ∧ start ≤ (Tree.sourceOf text).length)
      (Q := fun _ => True) (Tree.sourceOf text) fun c hc => ⟨hstarts c hc, trivial⟩
    obtain ⟨blocks, hblocks⟩ := exists_blocks ⟨rules⟩
      ⟨Node.ofConcrete (Tree.sourceOf text) (grammar (Tree.sourceOf text)), Tree.sourceOf text⟩
      fun n hn => (hnodes n hn).1
    exact ⟨_, ⟨blocks.flatten⟩, Tree.parse_eq_ok hsound,
      analyze_eq_ok_iff.mpr ⟨blocks, hblocks, rfl⟩⟩

end Engine

/-- Public fields over a source of one byte. The block lies outside and is not
matched, the first field ends before it starts, and only the field in the middle
is read-only. -/
def strayFields : Tree where
  root := node .compilationUnit ⟨-4, 99⟩ []
    [node .block ⟨-9, -20⟩ [] [], field ⟨1, -5⟩ ["public"], field ⟨2, 0⟩ ["public", "readonly"],
      field ⟨-3, 7⟩ ["public"]]
  source := [0x78]
where
  node (kind : Kind) (span : Span) (modifiers : List String) (children : List Node) : Node :=
    { kind, span, type := kind.name, field := none, name := none, modifiers, inferred := false,
      children }
  field (span : Span) (modifiers : List String) : Node :=
    node .fieldDeclaration span [] [node .modifierList span modifiers []]

/-- The rule that comes first does not match the field at 2, so the field at -3
is named, although it comes later in the tree. A block that starts at the end of
its text is no failure. -/
theorem Engine.analyze_strayFields :
    analyze ⟨[.publicWritableField, .publicField]⟩ strayFields = .error (.outside (-3) 1) ∧
      ∃ tree report,
        Tree.parse (fun _ => .branch "compilation_unit" ⟨0, 2⟩ [.branch "block" ⟨2, 900⟩ []]) "é" =
          .ok tree ∧
        analyze ⟨[.forKind "Blocks" "blocks" "Block" .block none]⟩ tree = .ok report := by
  constructor
  · exact (analyze_fails_on_first_match_outside.1 [.publicWritableField, .publicField]
      strayFields).2
  · exact analyze_fails_on_first_match_outside.2 _ "é" _ rfl (by decide)

end CSharpAudit
