import CSharpAudit.Engine
import CSharpAudit.Proofs.Source.Position
import CSharpAudit.Proofs.Tree.Preorder
import Mathlib.Data.List.Forall2

/-!
A run of the engine, match by match. The report holds one finding for each
match, by rule and then in the order of the tree, and there is a report
whenever every match starts inside the source.
-/

namespace CSharpAudit

theorem bind_eq_ok_iff {α β ε : Type} {x : Except ε α} {f : α → Except ε β} {b : β} :
    x >>= f = .ok b ↔ ∃ a, x = .ok a ∧ f a = .ok b := by
  cases x with
  | error e => simp [bind, Except.bind]
  | ok a => simp [bind, Except.bind]

theorem mapM_eq_ok_iff {α β ε : Type} {f : α → Except ε β} {items : List α}
    {results : List β} :
    items.mapM f = .ok results ↔ List.Forall₂ (fun a b => f a = .ok b) items results := by
  induction items generalizing results with
  | nil =>
      rw [List.mapM_nil, List.forall₂_nil_left_iff]
      exact ⟨fun h => (Except.ok.inj h).symm, fun h => congrArg Except.ok h.symm⟩
  | cons a rest ih =>
      rw [List.mapM_cons, List.forall₂_cons_left_iff, bind_eq_ok_iff]
      refine exists_congr fun b => ?_
      rw [bind_eq_ok_iff]
      constructor
      · rintro ⟨hb, bs, hrest, hresults⟩
        exact ⟨bs, hb, ih.mp hrest, (Except.ok.inj hresults).symm⟩
      · rintro ⟨bs, hb, hrest, rfl⟩
        exact ⟨hb, bs, ih.mpr hrest, rfl⟩

theorem exists_mapM_eq_ok {α β ε : Type} {f : α → Except ε β} {items : List α}
    (h : ∀ a ∈ items, ∃ b, f a = .ok b) : ∃ results, items.mapM f = .ok results := by
  induction items with
  | nil => exact ⟨[], rfl⟩
  | cons a rest ih =>
      obtain ⟨⟨b, hb⟩, hrest⟩ := List.forall_mem_cons.mp h
      obtain ⟨bs, hbs⟩ := ih hrest
      exact ⟨b :: bs, mapM_eq_ok_iff.mpr (.cons hb (mapM_eq_ok_iff.mp hbs))⟩

namespace Rule

theorem matchedNodes_eq (r : Rule) (t : Tree) :
    r.matchedNodes t = t.root.strictlyBelow.filter (fun n => n.kind == r.kind && r.matches? n) := by
  have hkeeps (n : Node) : n.keeps (some [r.kind]) = (n.kind == r.kind) := by
    simp only [Node.keeps, List.contains_cons, List.contains_nil, Bool.or_false]
  rw [matchedNodes, Tree.descendants, Node.descendants_eq_filter]
  simp only [hkeeps]

theorem matchedNodes_sublist {r wide : Rule} (hkind : r.kind = wide.kind)
    (hmatches : ∀ n, r.matches? n = true → wide.matches? n = true) (t : Tree) :
    (r.matchedNodes t).Sublist (wide.matchedNodes t) := by
  rw [r.matchedNodes_eq t, wide.matchedNodes_eq t]
  refine List.monotone_filter_right _ fun n hn => ?_
  rw [Bool.and_eq_true, beq_iff_eq] at hn ⊢
  exact ⟨hn.1.trans hkind, hmatches n hn.2⟩

theorem mem_preorder_of_mem_matchedNodes {r : Rule} {t : Tree} {n : Node}
    (hn : n ∈ r.matchedNodes t) : n ∈ t.root.preorder := by
  rw [r.matchedNodes_eq t] at hn
  rw [Node.preorder_eq]
  exact List.mem_cons_of_mem _ (List.mem_filter.mp hn).1

theorem finding_eq_ok_iff {r : Rule} {t : Tree} {n : Node} {f : Finding} :
    r.finding t n = .ok f ↔
      ∃ line column : Nat, t.lineOf n.span = .ok line ∧ t.columnOf n.span = .ok column ∧
        f = { ruleId := r.id, label := r.label, line, column, snippet := t.textOf n.span } := by
  rw [finding, bind_eq_ok_iff]
  refine exists_congr fun line => ?_
  rw [bind_eq_ok_iff]
  constructor
  · rintro ⟨hline, column, hcolumn, hf⟩
    exact ⟨column, hline, hcolumn, (Except.ok.inj hf).symm⟩
  · rintro ⟨column, hline, hcolumn, rfl⟩
    exact ⟨hline, column, hcolumn, rfl⟩

theorem exists_finding (r : Rule) (t : Tree) {n : Node}
    (hn : 0 ≤ n.span.start ∧ n.span.start ≤ t.source.length) : ∃ f, r.finding t n = .ok f := by
  obtain ⟨line, column, hline, hcolumn⟩ := t.exists_lineOf_columnOf hn
  exact ⟨_, finding_eq_ok_iff.mpr ⟨line, column, hline, hcolumn, rfl⟩⟩

end Rule

namespace Engine

theorem analyze_eq_ok_iff {e : Engine} {t : Tree} {report : Report} :
    e.analyze t = .ok report ↔
      ∃ blocks, List.Forall₂ (fun (r : Rule) block => r.detect t = .ok block) e.rules blocks ∧
        report.findings = blocks.flatten := by
  rw [analyze, bind_eq_ok_iff]
  refine exists_congr fun blocks => and_congr mapM_eq_ok_iff ?_
  obtain ⟨findings⟩ := report
  change Except.ok (Report.mk blocks.flatten) = .ok ⟨findings⟩ ↔ findings = blocks.flatten
  rw [Except.ok.injEq, Report.mk.injEq, eq_comm]

/-- Rules with the nodes they object to, in the order in which they are
reported. -/
def matchedPairs (e : Engine) (t : Tree) : List (Rule × Node) :=
  e.rules.flatMap fun r => (r.matchedNodes t).map fun n => (r, n)

theorem mem_preorder_of_mem_matchedPairs {e : Engine} {t : Tree} {m : Rule × Node}
    (hm : m ∈ e.matchedPairs t) : m.2 ∈ t.root.preorder := by
  obtain ⟨r, -, hm⟩ := List.mem_flatMap.mp hm
  obtain ⟨n, hn, rfl⟩ := List.mem_map.mp hm
  exact Rule.mem_preorder_of_mem_matchedNodes hn

theorem forall₂_matchedPairs {rules : List Rule} {t : Tree} {blocks : List (List Finding)}
    (h : List.Forall₂ (fun (r : Rule) block => r.detect t = .ok block) rules blocks) :
    List.Forall₂ (fun (m : Rule × Node) f => m.1.finding t m.2 = .ok f)
      (matchedPairs ⟨rules⟩ t) blocks.flatten := by
  induction h with
  | nil => exact .nil
  | cons hblock _ ih =>
      refine List.rel_append ?_ ih
      exact List.forall₂_map_left_iff.mpr (mapM_eq_ok_iff.mp hblock)

theorem exists_blocks (e : Engine) (t : Tree)
    (h : ∀ n ∈ t.root.preorder, 0 ≤ n.span.start ∧ n.span.start ≤ t.source.length) :
    ∃ blocks, List.Forall₂ (fun (r : Rule) block => r.detect t = .ok block) e.rules blocks := by
  have hblocks : ∃ blocks, e.blocks t = .ok blocks := by
    refine exists_mapM_eq_ok fun r _ => exists_mapM_eq_ok fun n hn => ?_
    exact r.exists_finding t (h n (Rule.mem_preorder_of_mem_matchedNodes hn))
  obtain ⟨blocks, hblocks⟩ := hblocks
  exact ⟨blocks, mapM_eq_ok_iff.mp hblocks⟩

end Engine

end CSharpAudit
