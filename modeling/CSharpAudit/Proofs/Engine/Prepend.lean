import CSharpAudit.Proofs.Engine.Outcome
import CSharpAudit.Proofs.Tree.Shift

/-!
Analysis behind whole lines. What stands in front of a program moves its
findings to later lines and changes nothing else: conversion moves with its
source, no built-in rule looks at a span, and the position of a node on its line
is told from the start of that line.
-/

namespace CSharpAudit

namespace Node

theorem childByField?_shifted (k : Nat) (n : Node) (field : String) :
    (n.shifted k).childByField? field = (n.childByField? field).map (shifted k) := by
  rw [childByField?, childByField?, children_shifted, List.find?_map]
  simp only [Function.comp_def, field_shifted]

theorem childrenOfKind_shifted (k : Nat) (n : Node) (kind : Kind) :
    (n.shifted k).childrenOfKind kind = (n.childrenOfKind kind).map (shifted k) := by
  rw [childrenOfKind, childrenOfKind, children_shifted, List.filter_map]
  simp only [Function.comp_def, kind_shifted]

@[simp] theorem modifierSet_shifted (k : Nat) (n : Node) :
    (n.shifted k).modifierSet = n.modifierSet := by
  rw [modifierSet, modifierSet, kind_shifted, modifiers_shifted, childrenOfKind_shifted,
    List.flatMap_map]
  simp only [modifiers_shifted]

end Node

namespace Rule

/-- The built-in rules, with any names and limits. -/
inductive IsBuiltin : Rule → Prop
  | publicField : IsBuiltin Rule.publicField
  | publicWritableField : IsBuiltin Rule.publicWritableField
  | inferredPrimitive (names : List String) : IsBuiltin (Rule.inferredPrimitive names)
  | longParameterList (limit : Int) : IsBuiltin (Rule.longParameterList limit)
  | collapsibleIf : IsBuiltin Rule.collapsibleIf

theorem parameterCount_shifted (k : Nat) (n : Node) :
    parameterCount (n.shifted k) = parameterCount n := by
  simp only [parameterCount, Node.childByField?_shifted, Node.childrenOfKind_shifted,
    List.head?_map, ← Option.map_or]
  cases (n.childByField? "parameters").or (n.childrenOfKind .parameterList).head? with
  | none => rfl
  | some list => simp only [Option.map_some, Node.childrenOfKind_shifted, List.length_map]

theorem isCollapsible_shifted (k : Nat) (n : Node) :
    isCollapsible (n.shifted k) = isCollapsible n := by
  simp only [isCollapsible, Node.childByField?_shifted]
  cases n.childByField? "consequence" with
  | none => rfl
  | some body =>
      simp only [Option.map_some, Node.kind_shifted, Node.children_shifted]
      rcases body.children with - | ⟨inner, - | ⟨second, more⟩⟩
      · rfl
      · simp [Node.childByField?_shifted]
      · rfl

theorem IsBuiltin.matches?_shifted {r : Rule} (h : r.IsBuiltin) (k : Nat) (n : Node) :
    r.matches? (n.shifted k) = r.matches? n := by
  cases h with
  | publicField => simp [Rule.publicField]
  | publicWritableField => simp [Rule.publicWritableField]
  | inferredPrimitive names =>
      simp only [Rule.inferredPrimitive, Node.childByField?_shifted]
      cases n.childByField? "type" with
      | none => rfl
      | some type =>
          simp only [Option.map_some, Node.inferred_shifted, Node.kind_shifted, Node.name_shifted]
  | longParameterList limit => simp only [Rule.longParameterList, parameterCount_shifted]
  | collapsibleIf => exact isCollapsible_shifted k n

end Rule

def Finding.lower (lines : Nat) (f : Finding) : Finding :=
  { f with line := f.line + lines }

namespace Engine

theorem matchedPairs_shifted {rules : List Rule} (hrules : ∀ r ∈ rules, r.IsBuiltin) (k : Nat)
    (root : Node) (source source' : Bytes) :
    matchedPairs ⟨rules⟩ ⟨root.shifted k, source'⟩ =
      (matchedPairs ⟨rules⟩ ⟨root, source⟩).map fun m => (m.1, m.2.shifted k) := by
  rw [matchedPairs_eq, matchedPairs_eq, List.map_flatMap]
  refine List.flatMap_congr fun r hr => ?_
  rw [Node.preorder_shifted, ← List.map_tail, List.filter_map, List.map_map, List.map_map]
  simp only [Function.comp_def, Node.kind_shifted, (hrules r hr).matches?_shifted k]

end Engine

open Text (WholeLines terminatorCount)
open Utf8 (encodeChars)

theorem Rule.finding_shifted (r : Rule) {before after : List Char} (h : WholeLines before after)
    (root root' : Node) {n : Node} {f : Finding}
    (hn : n.span.Within (encodeChars after).length)
    (hf : r.finding ⟨root, encodeChars after⟩ n = .ok f) :
    r.finding ⟨root', encodeChars before ++ encodeChars after⟩
        (n.shifted (encodeChars before).length) = .ok (f.lower (terminatorCount before)) := by
  obtain ⟨line, column, hline, hcolumn, rfl⟩ := Rule.finding_eq_ok_iff.mp hf
  obtain ⟨line', column', hline', hcolumn', hmoved, hkept⟩ :=
    Tree.exists_position_shifted h root root' hn.start
  obtain rfl : line' = line := Except.ok.inj (hline'.symm.trans hline)
  obtain rfl : column' = column := Except.ok.inj (hcolumn'.symm.trans hcolumn)
  rw [Rule.finding_eq_ok_iff]
  refine ⟨_, _, Node.span_shifted _ n ▸ hmoved, Node.span_shifted _ n ▸ hkept, ?_⟩
  simp only [Finding.lower, Tree.textOf, Node.span_shifted, Span.text_shifted _ _ hn,
    Int.natCast_add, Int.add_comm]

theorem Engine.analyze_shifted {rules : List Rule} (hrules : ∀ r ∈ rules, r.IsBuiltin)
    {before after : List Char} (h : WholeLines before after) {root : Node}
    (hroot : ∀ n ∈ root.preorder, n.span.Within (encodeChars after).length) :
    ∃ findings, analyze ⟨rules⟩ ⟨root, encodeChars after⟩ = .ok ⟨findings⟩ ∧
      analyze ⟨rules⟩ ⟨root.shifted (encodeChars before).length,
          encodeChars before ++ encodeChars after⟩ =
        .ok ⟨findings.map (Finding.lower (terminatorCount before))⟩ := by
  let tree : Tree := ⟨root, encodeChars after⟩
  have hpairs (m : Rule × Node) (hm : m ∈ matchedPairs ⟨rules⟩ tree) :
      m.2.span.Within (encodeChars after).length :=
    hroot m.2 (mem_preorder_of_mem_matchedPairs hm)
  obtain ⟨findings, hfindings⟩ : ∃ findings, (matchedPairs ⟨rules⟩ tree).mapM
      (fun m => m.1.finding tree m.2) = .ok findings :=
    exists_mapM_eq_ok fun m hm => m.1.exists_finding tree (hpairs m hm).start
  refine ⟨findings, ?_, ?_⟩
  · rw [analyze_eq_mapM]
    change Report.mk <$> (matchedPairs ⟨rules⟩ tree).mapM (fun m => m.1.finding tree m.2) = _
    rw [hfindings]
    rfl
  · have hmoved : ((matchedPairs ⟨rules⟩ tree).map
          fun m => (m.1, m.2.shifted (encodeChars before).length)).mapM
        (fun m => m.1.finding ⟨root.shifted (encodeChars before).length,
          encodeChars before ++ encodeChars after⟩ m.2) =
          .ok (findings.map (Finding.lower (terminatorCount before))) := by
      rw [mapM_eq_ok_iff, List.forall₂_map_left_iff, List.forall₂_map_right_iff]
      refine ((List.forall₂_and_left _ _).mpr ⟨hpairs, mapM_eq_ok_iff.mp hfindings⟩).imp ?_
      rintro m f ⟨hm, hf⟩
      exact m.1.finding_shifted h root _ hm hf
    rw [analyze_eq_mapM, matchedPairs_shifted hrules _ root (encodeChars after), hmoved]
    rfl

theorem Tree.sourceOf_eq {text : String} (h : text.toList.head? ≠ some '\uFEFF') :
    sourceOf text = encodeChars text.toList := by
  rw [sourceOf, withoutMark]
  split
  · next rest htext =>
    rw [htext] at h
    contradiction
  · rfl

theorem Node.within_ofConcrete {source : Bytes} {raw : Concrete.Node}
    (h : raw.AllWithin source.length) :
    ∀ n ∈ (ofConcrete source raw).preorder, n.span.Within source.length := by
  intro n hn
  obtain ⟨hstart, hstop⟩ := bounds_ofConcrete
    (P := fun start => 0 ≤ start ∧ start ≤ source.length)
    (Q := fun stop => 0 ≤ stop ∧ stop ≤ source.length) source
    (fun c hc => ⟨(h c hc).start, (h c hc).stop⟩) n hn
  exact ⟨hstart, hstop⟩

/-- Whole lines in front of a program change nothing about its findings but
their lines, which grow by the number of line terminators in front. -/
theorem Engine.analyze_behind_whole_lines (grammar : Grammar) (before text : String)
    (rules : List Rule) (hrules : ∀ r ∈ rules, r.IsBuiltin)
    (hbefore : before.toList.head? ≠ some '\uFEFF') (htext : text.toList.head? ≠ some '\uFEFF')
    (hend : ∃ c, before.toList.getLast? = some c ∧ Text.isTerminator c = true)
    (hapart : ¬ (before.toList.getLast? = some '\r' ∧ text.toList.head? = some '\n'))
    (hsound : (grammar (Tree.sourceOf text)).damaged = false)
    (hspans : (grammar (Tree.sourceOf text)).AllWithin (Tree.sourceOf text).length) :
    ∃ tree moved report,
      Tree.parse grammar text = .ok tree ∧
      Tree.parse
        (fun _ => (grammar (Tree.sourceOf text)).shifted (Utf8.encode before).length)
        (before ++ text) = .ok moved ∧
      Engine.analyze ⟨rules⟩ tree = .ok report ∧
      Engine.analyze ⟨rules⟩ moved = .ok
        ⟨report.findings.map fun f => { f with line := f.line + terminatorCount before.toList }⟩ := by
  generalize hraw : grammar (Tree.sourceOf text) = raw at hsound hspans ⊢
  have hwhole : WholeLines before.toList text.toList := by
    obtain ⟨c, hc, hterminator⟩ := hend
    refine ⟨fun d hd => ?_, hapart⟩
    obtain rfl := Option.some.inj (hc.symm.trans hd)
    exact hterminator
  have hsource : Tree.sourceOf text = encodeChars text.toList := Tree.sourceOf_eq htext
  rw [hsource] at hspans
  have hsource' : Tree.sourceOf (before ++ text) =
      encodeChars before.toList ++ encodeChars text.toList := by
    -- the lines in front are not empty, so the mark would have to be their own
    obtain ⟨c, hc, -⟩ := hend
    have hhead : (before ++ text).toList.head? = before.toList.head? := by
      rw [String.toList_append]
      exact List.head?_append_of_ne_nil _ (by rintro h; simp [h] at hc)
    rw [Tree.sourceOf_eq (hhead ▸ hbefore), String.toList_append, Utf8.encodeChars_append]
  have hparse : Tree.parse grammar text =
      .ok ⟨Node.ofConcrete (encodeChars text.toList) raw, encodeChars text.toList⟩ := by
    rw [Tree.parse_eq_ok (by rw [hraw, hsound]), hraw, hsource]
  have hparse' : Tree.parse (fun _ => raw.shifted (Utf8.encode before).length) (before ++ text) =
      .ok ⟨(Node.ofConcrete (encodeChars text.toList) raw).shifted
          (encodeChars before.toList).length,
        encodeChars before.toList ++ encodeChars text.toList⟩ := by
    rw [Tree.parse_eq_ok (by rw [Concrete.Node.damaged_shifted, hsound]), hsource',
      ← Node.ofConcrete_shifted _ _ hspans]
    rfl
  obtain ⟨findings, hreport, hmoved⟩ := Engine.analyze_shifted hrules hwhole
    (Node.within_ofConcrete hspans)
  exact ⟨_, _, ⟨findings⟩, hparse, hparse', hreport, hmoved⟩

def inferredCharacter : Concrete.Node :=
  .branch "compilation_unit" ⟨0, 12⟩
    [.branch "identifier" ⟨0, 2⟩ [],
     .branch "variable_declaration" ⟨3, 12⟩
       [.withField "type" (.branch "implicit_type" ⟨3, 6⟩ []),
        .branch "variable_declarator" ⟨7, 12⟩
          [.branch "identifier" ⟨7, 8⟩ [], .token "=" ⟨8, 9⟩,
           .branch "character_literal" ⟨9, 12⟩ []]]]

/-- Behind three terminators, the last of them a lone carriage return, the declaration
in `é var c='x'` is found three lines further down. -/
theorem Engine.analyze_behind_lines_inferredCharacter :
    ∃ tree moved report,
      Tree.parse (fun _ => inferredCharacter) "é var c='x'" = .ok tree ∧
      Tree.parse (fun _ => inferredCharacter.shifted 7) ("a\r\n\u2028\r" ++ "é var c='x'") =
        .ok moved ∧
      Engine.analyze ⟨[.publicField, .inferredPrimitive ["char"]]⟩ tree = .ok report ∧
      report.findings.length = 1 ∧
      Engine.analyze ⟨[.publicField, .inferredPrimitive ["char"]]⟩ moved =
        .ok ⟨report.findings.map fun f => { f with line := f.line + 3 }⟩ := by
  obtain ⟨tree, moved, report, hparse, hmoved, hreport, hlower⟩ :=
    Engine.analyze_behind_whole_lines (fun _ => inferredCharacter) "a\r\n\u2028\r" "é var c='x'"
      [.publicField, .inferredPrimitive ["char"]]
      (List.forall_mem_cons.mpr ⟨.publicField, List.forall_mem_singleton.mpr (.inferredPrimitive _)⟩)
      (by decide) (by decide) ⟨'\r', by decide⟩ (by decide) rfl
      (by unfold Concrete.Node.AllWithin; decide)
  refine ⟨tree, moved, report, hparse, hmoved, hreport, ?_, hlower⟩
  obtain rfl := Except.ok.inj (hparse.symm.trans (Tree.parse_eq_ok rfl))
  obtain ⟨blocks, hblocks, hfindings⟩ := Engine.analyze_eq_ok_iff.mp hreport
  rw [hfindings, ← (Engine.forall₂_matchedPairs hblocks).length_eq, Engine.matchedPairs_eq]
  decide

end CSharpAudit
