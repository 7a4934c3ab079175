import CSharpAudit.Proofs.Engine.Blocks
import CSharpAudit.Proofs.Tree.Conversions
import CSharpAudit.Proofs.Tree.Roles
import CSharpAudit.Rule.Builtin
import CSharpAudit.Tree.Parse

/-!
Modifiers through gathering, and the two rules on public fields. The loop over the
parts closes a list whenever a run of modifiers ends, and the modifiers of a node
are the words of all its lists, so every modifier counts and nothing else does, in
however many runs they come. Both rules ask for words among them and nothing more.
-/

namespace CSharpAudit

namespace Concrete.Node

/-- A modifier among the children of the node reads `word`. -/
def Carries (source : Bytes) (word : String) (n : Node) : Prop :=
  ∃ m ∈ n.children, m.named = true ∧ m.type = "modifier" ∧ Text.trim (m.text source) = word

instance (source : Bytes) (word : String) (n : Node) : Decidable (n.Carries source word) :=
  inferInstanceAs (Decidable (∃ m ∈ n.children, _))

end Concrete.Node

namespace Node

theorem mem_modifierSet {n : Node} (hkind : n.kind ≠ .modifierList) {word : String} :
    word ∈ n.modifierSet ↔
      ∃ list ∈ n.children, list.kind = .modifierList ∧ word ∈ list.modifiers := by
  rw [modifierSet, if_neg hkind, List.mem_eraseDups, List.mem_flatMap]
  simp [childrenOfKind, and_assoc]

theorem mem_modifiers_modifierLists {source : Bytes} {run : List Part} {word : String} :
    (∃ list ∈ modifierLists source run, list.kind = .modifierList ∧ word ∈ list.modifiers) ↔
      ∃ p ∈ run, Text.trim (p.raw.text source) = word := by
  cases run with
  | nil => simp [modifierLists]
  | cons first rest => simp [modifierLists, List.mem_eraseDups, eq_comm (a := word)]

/-- The words of all lists are those of the run that is still open and of the modifiers
that follow. -/
theorem mem_modifiers_gatherModifiers {source : Bytes} {run parts : List Part} {word : String}
    (h : ∀ p ∈ parts, p.node.kind ≠ .modifierList) :
    (∃ list ∈ gatherModifiers source run parts, list.kind = .modifierList ∧
        word ∈ list.modifiers) ↔
      ∃ p ∈ run ++ parts.filter (·.raw.isModifier), Text.trim (p.raw.text source) = word := by
  induction parts generalizing run with
  | nil => simpa [gatherModifiers] using mem_modifiers_modifierLists
  | cons p rest ih =>
      obtain ⟨hp, hrest⟩ := List.forall_mem_cons.mp h
      rw [gatherModifiers]
      split
      · next hmodifier =>
        simp [ih hrest, hmodifier]
      · next hmodifier =>
        -- the run ends: its list is closed, the part is no list, and no run is open behind it
        have hlater := @ih [] hrest
        rw [List.nil_append] at hlater
        rw [List.filter_cons, if_neg hmodifier]
        simp only [List.mem_append, List.mem_cons, or_and_right, exists_or, exists_eq_left, hp,
          false_and, false_or]
        rw [mem_modifiers_modifierLists, hlater]

theorem mem_modifierSet_ofConcrete {source : Bytes} {raw : Concrete.Node}
    (hlist : raw.type ≠ "parameter_list") {word : String} :
    word ∈ (ofConcrete source raw).modifierSet ↔ raw.Carries source word := by
  have hkind : (ofConcrete source raw).kind ≠ .modifierList := by
    rw [kind_ofConcrete]
    exact Kind.ofType_ne_modifierList raw.type
  have hplain : Kind.ofType raw.type ≠ .parameterList :=
    mt (Kind.ofType_eq_iff (by decide) (by decide)).mp hlist
  have hmodifier (c : Concrete.Node) : c.isStructural = true ∧ c.type = "modifier" ↔
      c.named = true ∧ c.type = "modifier" := by
    refine and_congr_left fun htype => ?_
    simp [Concrete.Node.isStructural, htype]
  rw [mem_modifierSet hkind, children_ofConcrete_eq_gatherModifiers source hplain,
    mem_modifiers_gatherModifiers fun p hp => kind_of_mem_reachedParts (List.mem_filter.mp hp).1,
    Concrete.Node.Carries, ← map_raw_reachedParts source raw]
  simp only [List.nil_append, List.mem_filter, Concrete.Node.isModifier, beq_iff_eq, and_assoc,
    hmodifier, List.mem_map, exists_exists_and_eq_and]

theorem modifierSet_of_becomes {source : Bytes} {v : Concrete.Node.Visit} {n : Node}
    (hn : v.Becomes source n) (hentered : v.entered = true)
    (hlist : v.node.type ≠ "parameter_list") (word : String) :
    word ∈ n.modifierSet ↔ v.node.Carries source word := by
  rw [Concrete.Node.Visit.Becomes, if_pos hentered] at hn
  rcases hn with rfl | rfl
  · exact mem_modifierSet_ofConcrete hlist
  · change word ∈ (ofConcrete source v.node).modifierSet ↔ _
    exact mem_modifierSet_ofConcrete hlist

end Node

def Finding.place (f : Finding) : Int × Int × String :=
  (f.line, f.column, f.snippet)

namespace Rule

theorem exists_finding_place {r : Rule} {t : Tree} {n : Node} {f : Finding} (other : Rule)
    (hf : r.finding t n = .ok f) : ∃ g, other.finding t n = .ok g ∧ g.place = f.place := by
  obtain ⟨line, column, hline, hcolumn, rfl⟩ := finding_eq_ok_iff.mp hf
  exact ⟨_, finding_eq_ok_iff.mpr ⟨line, column, hline, hcolumn, rfl⟩, rfl⟩

/-- A rule that matches a part of what another matches finds a part of its places. -/
theorem exists_detect_sublist {narrow wide : Rule} {t : Tree} {found : List Finding}
    (hnodes : (narrow.matchedNodes t).Sublist (wide.matchedNodes t))
    (hfound : wide.detect t = .ok found) :
    ∃ few, narrow.detect t = .ok few ∧
      (few.map Finding.place).Sublist (found.map Finding.place) := by
  rw [detect, mapM_eq_ok_iff] at hfound
  simp only [detect, mapM_eq_ok_iff]
  generalize narrow.matchedNodes t = part at hnodes ⊢
  generalize wide.matchedNodes t = nodes at hnodes hfound
  induction hnodes generalizing found with
  | slnil => exact ⟨[], .nil, List.nil_sublist _⟩
  | cons n _ ih =>
      obtain ⟨f, more, -, hmore, rfl⟩ := List.forall₂_cons_left_iff.mp hfound
      obtain ⟨few, hfew, hsub⟩ := ih hmore
      exact ⟨few, hfew, hsub.cons _⟩
  | cons_cons n _ ih =>
      obtain ⟨f, more, hf, hmore, rfl⟩ := List.forall₂_cons_left_iff.mp hfound
      obtain ⟨few, hfew, hsub⟩ := ih hmore
      obtain ⟨g, hg, hplace⟩ := exists_finding_place narrow hf
      refine ⟨g :: few, .cons hg hfew, ?_⟩
      rw [List.map_cons, List.map_cons, hplace]
      exact hsub.cons_cons _

section Verdicts

variable {source : Bytes} {n : Concrete.Node}

theorem publicField_matches_iff (htype : n.type = "field_declaration") :
    publicField.matches? (Node.ofConcrete source n) = true ↔ n.Carries source "public" := by
  have hlist : n.type ≠ "parameter_list" := by simp [htype]
  simp only [publicField, List.contains_iff_mem, Node.mem_modifierSet_ofConcrete hlist]

theorem publicWritableField_matches_iff (htype : n.type = "field_declaration") :
    publicWritableField.matches? (Node.ofConcrete source n) = true ↔
      n.Carries source "public" ∧ ¬ n.Carries source "readonly" := by
  have hlist : n.type ≠ "parameter_list" := by simp [htype]
  simp only [publicWritableField, Bool.and_eq_true, Bool.not_eq_true', ← Bool.not_eq_true,
    List.contains_iff_mem, Node.mem_modifierSet_ofConcrete hlist]

end Verdicts

/-- Modifiers count exactly, whatever stands between them. Every node that is reached
with its children, and is no parameter list, has the modifiers that it carries. So
the two rules object to the fields below the root that carry `public`, and to those
of them that do not carry `readonly`. Where nodes start inside the source both come to
an end, and what the second finds is found by the first in the same places. -/
theorem modifiers_exact_through_gathering (source : Bytes) (raw : Concrete.Node)
    (h : raw.damaged = false) :
    ∃ tree, Tree.ofRead source raw = .ok tree ∧
      List.SublistForall₂
        (fun v n => v.Becomes source n ∧
          (v.entered = true → v.node.type ≠ "parameter_list" →
            ∀ word, word ∈ n.modifierSet ↔ v.node.Carries source word))
        (raw.visits source) tree.root.preorder ∧
      publicField.matchedNodes tree =
        (((raw.visits source).tail.map Concrete.Node.Visit.node).filter fun n =>
          n.type = "field_declaration" ∧ n.Carries source "public").map
            (Node.ofConcrete source) ∧
      publicWritableField.matchedNodes tree =
        (((raw.visits source).tail.map Concrete.Node.Visit.node).filter fun n =>
          n.type = "field_declaration" ∧
            n.Carries source "public" ∧ ¬ n.Carries source "readonly").map
              (Node.ofConcrete source) ∧
      (tree.StartsInside → ∃ found, publicField.detect tree = .ok found) ∧
      ∀ found, publicField.detect tree = .ok found →
        ∃ writable, publicWritableField.detect tree = .ok writable ∧
          (writable.map Finding.place).Sublist (found.map Finding.place) := by
  refine ⟨_, Tree.ofRead_eq_ok_iff.mpr ⟨h, rfl⟩, ?_, ?_, ?_, fun hinside => ?_, ?_⟩
  · obtain ⟨kept, hkept, hsub⟩ :=
      List.sublistForall₂_iff.mp (Node.sublistForall₂_becomes source raw)
    refine List.sublistForall₂_iff.mpr ⟨kept, hkept.imp fun v n hn => ⟨hn, ?_⟩, hsub⟩
    exact Node.modifierSet_of_becomes hn
  · exact matchedNodes_eq_of_matches_iff (r := publicField) (by decide)
      (fun n => publicField_matches_iff) raw
  · exact matchedNodes_eq_of_matches_iff (r := publicWritableField) (by decide)
      (fun n => publicWritableField_matches_iff) raw
  · exact ⟨_, publicField.detect_eq_block hinside⟩
  · intro found hfound
    have hnodes (t : Tree) :
        (publicWritableField.matchedNodes t).Sublist (publicField.matchedNodes t) := by
      apply matchedNodes_sublist
      · rfl
      · intro n hn
        exact (Bool.and_eq_true_iff.mp hn).1
    exact exists_detect_sublist (hnodes _) hfound

/-- Two fields. The modifiers of the first come in two runs, with attributes between
them; between those of the second stands a comment. -/
def partedModifiers : Concrete.Node :=
  .branch "declaration_list" ⟨0, 49⟩
    [.branch "field_declaration" ⟨0, 24⟩
      [.branch "modifier" ⟨0, 6⟩ [], .branch "attribute_list" ⟨6, 9⟩ [],
       .branch "modifier" ⟨9, 17⟩ [], .branch "variable_declaration" ⟨18, 23⟩ [],
       .token ";" ⟨23, 24⟩],
     .branch "field_declaration" ⟨24, 49⟩
      [.branch "modifier" ⟨24, 32⟩ [], .branch "comment" ⟨32, 36⟩ [],
       .branch "modifier" ⟨36, 42⟩ [], .branch "variable_declaration" ⟨43, 48⟩ [],
       .token ";" ⟨48, 49⟩]]

/-- Both are public, and only the first is read-only. -/
theorem modifiers_exact_partedModifiers :
    partedModifiers.damaged = false ∧
      ∃ tree, Tree.ofRead (Utf8.encode "public[A]readonly int a;internal/**/public int b;")
          partedModifiers = .ok tree ∧
        (publicField.matchedNodes tree).map Node.span = [⟨0, 24⟩, ⟨24, 49⟩] ∧
        (publicWritableField.matchedNodes tree).map Node.span = [⟨24, 49⟩] := by
  have hsound : partedModifiers.damaged = false := by decide
  obtain ⟨tree, htree, -, hpublic, hwritable, -, -⟩ := modifiers_exact_through_gathering
    (Utf8.encode "public[A]readonly int a;internal/**/public int b;") partedModifiers hsound
  refine ⟨hsound, tree, htree, ?_, ?_⟩
  · rw [hpublic]
    decide +kernel
  · rw [hwritable]
    decide +kernel

end Rule

end CSharpAudit
