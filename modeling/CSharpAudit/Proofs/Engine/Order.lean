import CSharpAudit.Proofs.Engine.Analysis
import CSharpAudit.Proofs.Tree.Spans

/-!
The order of a report: by rule, and for each rule by place. The nodes of a
tree with nested spans start, in pre-order, never before the node visited
last, and places keep the order of the starts.
-/

namespace CSharpAudit

theorem pairwise_of_forall₂ {α β : Type} {P : α → α → Prop} {Q : β → β → Prop}
    {R : α → β → Prop} {items : List α} {results : List β} (h : List.Forall₂ R items results)
    (hitems : items.Pairwise P) (hstep : ∀ a b c d, P a b → R a c → R b d → Q c d) :
    results.Pairwise Q := by
  induction h with
  | nil => exact .nil
  | @cons a c rest more hac hrest ih =>
      obtain ⟨hfirst, hothers⟩ := List.pairwise_cons.mp hitems
      refine List.pairwise_cons.mpr ⟨fun d hd => ?_, ih hothers⟩
      obtain ⟨i, hi, rfl⟩ := List.getElem_of_mem hd
      have hi' : i < rest.length := hrest.length_eq ▸ hi
      exact hstep a rest[i] c _ (hfirst _ (List.getElem_mem hi')) hac (hrest.get hi' hi)

def Finding.NoLater (f g : Finding) : Prop :=
  f.line < g.line ∨ f.line = g.line ∧ f.column ≤ g.column

theorem Rule.finding_noLater {r : Rule} {t : Tree} {a b : Node} {f g : Finding}
    (hab : a.span.start ≤ b.span.start) (hf : r.finding t a = .ok f)
    (hg : r.finding t b = .ok g) : f.NoLater g := by
  obtain ⟨la, ca, hla, hca, rfl⟩ := Rule.finding_eq_ok_iff.mp hf
  obtain ⟨lb, cb, hlb, hcb, rfl⟩ := Rule.finding_eq_ok_iff.mp hg
  have hplace := Tree.position_mono hab hla hca hlb hcb
  simp only [Finding.NoLater]
  omega

theorem Rule.pairwise_detect {r : Rule} {t : Tree} {block : List Finding}
    (hnested : t.root.Everywhere Span.Holds) (h : r.detect t = .ok block) :
    block.Pairwise Finding.NoLater := by
  have hsorted := (Node.pairwise_start_preorder hnested).1
  -- the root comes first in the pre-order and is never matched
  rw [Node.preorder_eq, List.pairwise_cons] at hsorted
  have hmatches : (r.matchedNodes t).Pairwise (fun a b => a.span.start ≤ b.span.start) := by
    rw [r.matchedNodes_eq t]
    exact hsorted.2.sublist List.filter_sublist
  exact pairwise_of_forall₂ (mapM_eq_ok_iff.mp h) hmatches
    fun a b f g hab hf hg => Rule.finding_noLater hab hf hg

/-- A report is one block of findings for each rule, in the order of the rules.
A block has one finding for each node below the root that is of the rule's kind
and matches, and its places never go back. -/
theorem Engine.report_in_rule_then_source_order (grammar : Grammar) (text : String)
    (rules : List Rule) (hsound : (grammar (Tree.sourceOf text)).damaged = false)
    (hnested : (grammar (Tree.sourceOf text)).WellNested)
    (hstart : 0 ≤ (grammar (Tree.sourceOf text)).span.start)
    (hstop : (grammar (Tree.sourceOf text)).span.stop ≤ (Tree.sourceOf text).length) :
    ∃ tree blocks, Tree.parse grammar text = .ok tree ∧
      Engine.analyze ⟨rules⟩ tree = .ok ⟨blocks.flatten⟩ ∧
      List.Forall₂
        (fun (r : Rule) block =>
          List.Forall₂ (fun n f => r.finding tree n = .ok f)
            (tree.root.preorder.tail.filter (fun n => n.kind == r.kind && r.matches? n)) block ∧
          block.Pairwise Finding.NoLater)
        rules blocks := by
  let raw := grammar (Tree.sourceOf text)
  let tree : Tree :=
    { root := Node.ofConcrete (Tree.sourceOf text) raw, source := Tree.sourceOf text }
  have hparse : Tree.parse grammar text = .ok tree := Tree.parse_eq_ok hsound
  have hspans : tree.root.Everywhere Span.Holds :=
    Node.everywhere_holds_ofConcrete (Tree.sourceOf text) hnested
  have hwithin (n : Node) (hn : n ∈ tree.root.preorder) :
      0 ≤ n.span.start ∧ n.span.start ≤ tree.source.length := by
    have hbounds := (Node.pairwise_start_preorder hspans).2 n hn
    have hroot : tree.root.span = raw.span := Node.span_ofConcrete _ raw
    rw [hroot] at hbounds
    exact ⟨Int.le_trans hstart hbounds.1, Int.le_trans hbounds.2 hstop⟩
  obtain ⟨blocks, hblocks⟩ := Engine.exists_blocks ⟨rules⟩ tree hwithin
  refine ⟨tree, blocks, hparse, Engine.analyze_eq_ok_iff.mpr ⟨blocks, hblocks, rfl⟩, ?_⟩
  refine hblocks.imp fun r block hblock => ⟨?_, r.pairwise_detect hspans hblock⟩
  rw [Node.preorder_eq, List.tail_cons]
  exact r.matchedNodes_eq tree ▸ mapM_eq_ok_iff.mp hblock

/-- A tree over `é a`, a line break of two characters and `b`. One of its names
begins inside the first character, another inside the line break. -/
def namesAcrossLines : Concrete.Node :=
  .branch "compilation_unit" ⟨0, 7⟩
    [.branch "identifier" ⟨1, 2⟩ [],
     .branch "block" ⟨3, 7⟩ [.branch "identifier" ⟨3, 4⟩ [], .branch "identifier" ⟨5, 7⟩ []]]

/-- Three names and a block make two blocks of findings, of three and of one. -/
theorem Engine.report_in_order_namesAcrossLines :
    namesAcrossLines.WellNested ∧
      ∃ tree names blocks, Tree.parse (fun _ => namesAcrossLines) "é a\r\nb" = .ok tree ∧
        Engine.analyze ⟨[.forKind "Names" "names" "Name" .identifier none,
          .forKind "Blocks" "blocks" "Block" .block none]⟩ tree = .ok ⟨names ++ blocks⟩ ∧
        names.length = 3 ∧ blocks.length = 1 ∧ names.Pairwise Finding.NoLater := by
  have hnested : namesAcrossLines.WellNested := by
    unfold Concrete.Node.WellNested
    decide
  obtain ⟨tree, blocks, hparse, hreport, hblocks⟩ :=
    Engine.report_in_rule_then_source_order (fun _ => namesAcrossLines) "é a\r\nb"
      [.forKind "Names" "names" "Name" .identifier none,
        .forKind "Blocks" "blocks" "Block" .block none]
      rfl hnested (by decide) (by decide)
  obtain rfl := Except.ok.inj (hparse.symm.trans (Tree.parse_eq_ok rfl))
  obtain ⟨names, rest, hnames, hrest, rfl⟩ := List.forall₂_cons_left_iff.mp hblocks
  obtain ⟨others, more, hothers, hmore, rfl⟩ := List.forall₂_cons_left_iff.mp hrest
  obtain rfl := List.forall₂_nil_left_iff.mp hmore
  refine ⟨hnested, _, names, others, hparse, ?_, ?_, ?_, hnames.2⟩
  · simpa using hreport
  · rw [← hnames.1.length_eq]
    decide
  · rw [← hothers.1.length_eq]
    decide

end CSharpAudit
