import CSharpAudit.Proofs.Engine.Analysis
import Mathlib.Algebra.Ring.Nat

/-!
What each rule adds to a report. Over a tree whose nodes start inside its source
every rule has a block of findings, which depends on that rule and the tree alone
and carries the id of the rule throughout. A report is the blocks of its rules
one after the other, so picking rules by their ids before a run picks findings
by the same ids after it.
-/

namespace CSharpAudit

def Tree.StartsInside (t : Tree) : Prop :=
  ∀ n ∈ t.root.preorder, 0 ≤ n.span.start ∧ n.span.start ≤ t.source.length

namespace Rule

/-- The findings of a rule, and none if a match lies outside the source. -/
def block (r : Rule) (t : Tree) : List Finding :=
  (r.detect t).toOption.getD []

theorem detect_eq_block (r : Rule) {t : Tree} (ht : t.StartsInside) :
    r.detect t = .ok (r.block t) := by
  have hmatched (n : Node) (hn : n ∈ r.matchedNodes t) : ∃ f, r.finding t n = .ok f :=
    r.exists_finding t (ht n (mem_preorder_of_mem_matchedNodes hn))
  obtain ⟨findings, hfindings⟩ := exists_mapM_eq_ok hmatched
  change r.detect t = .ok findings at hfindings
  rw [block, hfindings]
  rfl

theorem forall₂_block (r : Rule) {t : Tree} (ht : t.StartsInside) :
    List.Forall₂ (fun n f => r.finding t n = .ok f) (r.matchedNodes t) (r.block t) :=
  mapM_eq_ok_iff.mp (r.detect_eq_block ht)

theorem length_block (r : Rule) {t : Tree} (ht : t.StartsInside) :
    (r.block t).length =
      (t.root.strictlyBelow.filter fun n => n.kind == r.kind && r.matches? n).length := by
  rw [← r.matchedNodes_eq t, (r.forall₂_block ht).length_eq]

theorem ruleId_of_mem_block {r : Rule} {t : Tree} (ht : t.StartsInside) {f : Finding}
    (hf : f ∈ r.block t) : f.ruleId = r.id := by
  have hblock := r.forall₂_block ht
  obtain ⟨i, hi, rfl⟩ := List.getElem_of_mem hf
  have hfinding := hblock.get (hblock.length_eq ▸ hi) hi
  obtain ⟨line, column, -, -, hfound⟩ := finding_eq_ok_iff.mp hfinding
  change (r.block t)[i] = _ at hfound
  rw [hfound]

end Rule

namespace Engine

theorem analyze_eq_flatMap (rules : List Rule) {t : Tree} (ht : t.StartsInside) :
    analyze ⟨rules⟩ t = .ok ⟨rules.flatMap fun r => r.block t⟩ := by
  refine analyze_eq_ok_iff.mpr ⟨rules.map fun r => r.block t, ?_, List.flatMap_def⟩
  rw [List.forall₂_map_right_iff, List.forall₂_same]
  intro r _
  exact r.detect_eq_block ht

/-- Whether rules are picked before a run or findings after it makes no
difference. -/
theorem filter_flatMap_block (rules : List Rule) {t : Tree} (ht : t.StartsInside)
    (keep : String → Bool) :
    (rules.flatMap fun r => r.block t).filter (fun f => keep f.ruleId) =
      (rules.filter fun r => keep r.id).flatMap fun r => r.block t := by
  induction rules with
  | nil => rfl
  | cons r rest ih =>
      rw [List.flatMap_cons, List.filter_append, ih]
      -- a block is kept as a whole or dropped as a whole
      cases hr : keep r.id with
      | true =>
          have hall : (r.block t).filter (fun f => keep f.ruleId) = r.block t := by
            rw [List.filter_eq_self]
            intro f hf
            rw [Rule.ruleId_of_mem_block ht hf, hr]
          simp only [hall, List.filter_cons, hr, if_true, List.flatMap_cons]
      | false =>
          have hnone : (r.block t).filter (fun f => keep f.ruleId) = [] := by
            rw [List.filter_eq_nil_iff]
            intro f hf
            simp [Rule.ruleId_of_mem_block ht hf, hr]
          simp only [hnone, List.filter_cons, hr, Bool.false_eq_true, if_false, List.nil_append]

theorem logFrom_eq (rules : List Rule) {t : Tree} (ht : t.StartsInside) (total ruleCount : Nat) :
    logFrom t total ruleCount rules =
      rules.map (fun r => ruleRecord r (r.block t).length) ++
        [summaryRecord (total + (rules.map fun r => (r.block t).length).sum) ruleCount] := by
  induction rules generalizing total with
  | nil => rfl
  | cons r rest ih =>
      simp only [logFrom, r.detect_eq_block ht, ih, List.map_cons, List.sum_cons, List.cons_append,
        Nat.add_assoc]

end Engine

/-- A public field, a variable whose type is inferred to be `char`, and a method
of two parameters with a condition inside another. -/
def smallProgram : Tree where
  root := node .compilationUnit none []
    [node .fieldDeclaration none [] [node .modifierList none ["public"] []],
      node .variableDeclaration none []
        [{ node .identifier "type" [] [] with name := some "char", inferred := true }],
      node .methodDeclaration none []
        [node .parameterList "parameters" []
          [node .parameter none [] [], node .parameter none [] []],
        node .ifStatement none []
          [node .block "consequence" [] [node .ifStatement none [] []]]]]
  source := []
where
  node (kind : Kind) (field : Option String) (modifiers : List String) (children : List Node) :
      Node :=
    { kind, span := ⟨0, 0⟩, type := kind.name, field, name := none, modifiers, inferred := false,
      children }

theorem startsInside_smallProgram : smallProgram.StartsInside := by
  unfold Tree.StartsInside
  decide

end CSharpAudit
