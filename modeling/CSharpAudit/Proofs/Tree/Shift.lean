import CSharpAudit.Proofs.Source.Prefix
import CSharpAudit.Proofs.Tree.InferredType
import CSharpAudit.Proofs.Tree.Parts
import CSharpAudit.Proofs.Tree.Preorder

/-!
Trees behind a prefix. A concrete tree whose spans are all moved back by the
length of some bytes, read over a source with these bytes in front, becomes the
same syntax tree with its spans moved back: every text that conversion reads is
cut out by the span of a node and by nothing else.
-/

namespace CSharpAudit.Concrete.Node

mutual

/-- The tree with all its spans `k` bytes further back. -/
def shifted (k : Nat) : Node → Node
  | ⟨type, span, field, named, missing, damaged, children⟩ =>
    ⟨type, span.shifted k, field, named, missing, damaged, shiftedAll k children⟩

def shiftedAll (k : Nat) : List Node → List Node
  | [] => []
  | n :: rest => n.shifted k :: shiftedAll k rest

end

theorem shiftedAll_eq_map (k : Nat) (nodes : List Node) :
    shiftedAll k nodes = nodes.map (shifted k) :=
  eq_map_of_cons rfl (fun _ _ => rfl) nodes

theorem shifted_eq (k : Nat) (n : Node) :
    n.shifted k = { n with span := n.span.shifted k, children := n.children.map (shifted k) } := by
  cases n
  rw [shifted, shiftedAll_eq_map]

@[simp] theorem type_shifted (k : Nat) (n : Node) : (n.shifted k).type = n.type := by
  rw [shifted_eq]

@[simp] theorem span_shifted (k : Nat) (n : Node) : (n.shifted k).span = n.span.shifted k := by
  rw [shifted_eq]

@[simp] theorem field_shifted (k : Nat) (n : Node) : (n.shifted k).field = n.field := by
  rw [shifted_eq]

@[simp] theorem named_shifted (k : Nat) (n : Node) : (n.shifted k).named = n.named := by
  rw [shifted_eq]

@[simp] theorem damaged_shifted (k : Nat) (n : Node) : (n.shifted k).damaged = n.damaged := by
  rw [shifted_eq]

@[simp] theorem children_shifted (k : Nat) (n : Node) :
    (n.shifted k).children = n.children.map (shifted k) := by
  rw [shifted_eq]

@[simp] theorem isStructural_shifted (k : Nat) (n : Node) :
    (n.shifted k).isStructural = n.isStructural := by
  rw [isStructural, isStructural, named_shifted, type_shifted]

def AllWithin (root : Node) (length : Nat) : Prop :=
  ∀ n ∈ root.preorder, n.span.Within length

theorem AllWithin.self {n : Node} {length : Nat} (h : n.AllWithin length) :
    n.span.Within length :=
  h n (branching.self_mem n)

theorem AllWithin.child {n c : Node} {length : Nat} (h : n.AllWithin length)
    (hc : c ∈ n.children) : c.AllWithin length :=
  fun m hm => h m (branching.mem_of_child hc hm)

/-! What is read off a shifted node. -/

theorem initializerAmong?_shifted (k : Nat) (afterEquals : Bool) (nodes : List Node) :
    initializerAmong? afterEquals (nodes.map (shifted k)) =
      (initializerAmong? afterEquals nodes).map (shifted k) := by
  induction nodes generalizing afterEquals with
  | nil => rfl
  | cons n rest ih =>
      have hclause : (n.shifted k).children.find? isStructural =
          (n.children.find? isStructural).map (shifted k) := by
        rw [children_shifted, List.find?_map]
        simp only [Function.comp_def, isStructural_shifted]
      rw [List.map_cons, initializerAmong?, initializerAmong?, type_shifted, isStructural_shifted,
        hclause, ih, ih]
      split_ifs <;> rfl

theorem exists_mem_of_initializerAmong? {afterEquals : Bool} {nodes : List Node} {i : Node}
    (h : initializerAmong? afterEquals nodes = some i) :
    ∃ n ∈ nodes, i = n ∨ i ∈ n.children := by
  induction nodes generalizing afterEquals with
  | nil => simp [initializerAmong?] at h
  | cons n rest ih =>
      have hlater (b : Bool) (hb : initializerAmong? b rest = some i) :
          ∃ m ∈ n :: rest, i = m ∨ i ∈ m.children := by
        obtain ⟨m, hm, hi⟩ := ih hb
        exact ⟨m, List.mem_cons_of_mem n hm, hi⟩
      rw [initializerAmong?] at h
      split_ifs at h
      · exact hlater true h
      · exact ⟨n, List.mem_cons_self, .inr (List.mem_of_find?_eq_some h)⟩
      · exact ⟨n, List.mem_cons_self, .inl (Option.some.inj h).symm⟩
      · exact hlater afterEquals h

section Readers

variable (before after : Bytes)

theorem text_shifted {n : Node} (h : n.span.Within after.length) :
    (n.shifted before.length).text (before ++ after) = n.text after := by
  rw [text, text, span_shifted, Span.text_shifted before after h]

theorem writtenType_shifted {n : Node} (h : n.AllWithin after.length) :
    (n.shifted before.length).writtenType (before ++ after) = n.writtenType after := by
  rw [writtenType_eq, writtenType_eq, children_shifted, List.find?_map, Option.map_map]
  simp only [Function.comp_def, field_shifted]
  refine congrArg (fun written => written.getD inferenceWord) (Option.map_congr fun c hc => ?_)
  rw [text_shifted before after (h.child (List.mem_of_find?_eq_some hc)).self]

theorem shownType_shifted {n : Node} (h : n.AllWithin after.length) :
    (n.shifted before.length).shownType (before ++ after) = n.shownType after := by
  induction n using Node.branching.induction with
  | step n ih =>
      apply shownType_congr (type_shifted _ n) (text_shifted before after h.self)
        (writtenType_shifted before after h)
      rw [lastShownType?_eq, lastShownType?_eq, children_shifted, List.filter_map, List.map_map]
      simp only [Function.comp_def, isStructural_shifted]
      refine congrArg List.getLast? (List.map_congr_left fun c hc => ?_)
      have hchild := (List.mem_filter.mp hc).1
      exact ih c hchild (h.child hchild)

theorem declaredType_shifted {n : Node} (h : n.AllWithin after.length) :
    (n.shifted before.length).declaredType (before ++ after) = n.declaredType after := by
  rw [declaredType_eq, declaredType_eq, children_shifted, List.find?_map, Option.map_map]
  simp only [Function.comp_def, type_shifted, children_shifted, initializerAmong?_shifted,
    Option.map_map]
  refine congrArg (fun shown => shown.join.getD inferenceWord)
    (Option.map_congr fun d hd => Option.map_congr fun i hi => ?_)
  have hdeclarator := h.child (List.mem_of_find?_eq_some hd)
  obtain ⟨m, hm, rfl | hi⟩ := exists_mem_of_initializerAmong? hi
  · exact shownType_shifted before after (hdeclarator.child hm)
  · exact shownType_shifted before after ((hdeclarator.child hm).child hi)

end Readers

end CSharpAudit.Concrete.Node

namespace CSharpAudit.Node

mutual

def shifted (k : Nat) : Node → Node
  | ⟨kind, span, type, field, name, modifiers, inferred, children⟩ =>
    ⟨kind, span.shifted k, type, field, name, modifiers, inferred, shiftedAll k children⟩

def shiftedAll (k : Nat) : List Node → List Node
  | [] => []
  | n :: rest => n.shifted k :: shiftedAll k rest

end

theorem shiftedAll_eq_map (k : Nat) (nodes : List Node) :
    shiftedAll k nodes = nodes.map (shifted k) :=
  eq_map_of_cons rfl (fun _ _ => rfl) nodes

theorem shifted_eq (k : Nat) (n : Node) :
    n.shifted k = { n with span := n.span.shifted k, children := n.children.map (shifted k) } := by
  cases n
  rw [shifted, shiftedAll_eq_map]

@[simp] theorem kind_shifted (k : Nat) (n : Node) : (n.shifted k).kind = n.kind := by
  rw [shifted_eq]

@[simp] theorem span_shifted (k : Nat) (n : Node) : (n.shifted k).span = n.span.shifted k := by
  rw [shifted_eq]

@[simp] theorem field_shifted (k : Nat) (n : Node) : (n.shifted k).field = n.field := by
  rw [shifted_eq]

@[simp] theorem name_shifted (k : Nat) (n : Node) : (n.shifted k).name = n.name := by
  rw [shifted_eq]

@[simp] theorem modifiers_shifted (k : Nat) (n : Node) :
    (n.shifted k).modifiers = n.modifiers := by
  rw [shifted_eq]

@[simp] theorem inferred_shifted (k : Nat) (n : Node) : (n.shifted k).inferred = n.inferred := by
  rw [shifted_eq]

@[simp] theorem children_shifted (k : Nat) (n : Node) :
    (n.shifted k).children = n.children.map (shifted k) := by
  rw [shifted_eq]

theorem preorder_shifted (k : Nat) (n : Node) :
    (n.shifted k).preorder = n.preorder.map (shifted k) :=
  branching.preorder_map branching (children_shifted k) n

def Part.shifted (k : Nat) (p : Part) : Part :=
  ⟨p.raw.shifted k, p.node.shifted k⟩

theorem Part.withoutField_shifted (k : Nat) (p : Part) :
    (p.shifted k).withoutField = p.withoutField.shifted k := by
  simp only [Part.shifted, withoutField, shifted_eq]

theorem spanOf_shifted (k : Nat) (first : Part) (rest : List Part) :
    spanOf (first.shifted k) (rest.map (Part.shifted k)) = (spanOf first rest).shifted k := by
  have hlast : ((first.shifted k :: rest.map (Part.shifted k)).getLastD (first.shifted k)) =
      ((first :: rest).getLastD first).shifted k := by
    rw [← List.map_cons, List.getLastD_eq_getLast?, List.getLast?_map, List.getLastD_eq_getLast?,
      Option.getD_map]
  rw [spanOf, hlast, spanOf]
  simp [Part.shifted, Span.shifted]

theorem modifierLists_shifted (before after : Bytes) {run : List Part}
    (h : ∀ p ∈ run, p.raw.span.Within after.length) :
    modifierLists (before ++ after) (run.map (Part.shifted before.length)) =
      (modifierLists after run).map (shifted before.length) := by
  cases run with
  | nil => rfl
  | cons first rest =>
      have hwords : ((first :: rest).map (Part.shifted before.length)).map
            (fun p => Text.trim (p.raw.text (before ++ after))) =
          (first :: rest).map (fun p => Text.trim (p.raw.text after)) := by
        rw [List.map_map]
        refine List.map_congr_left fun p hp => congrArg Text.trim ?_
        exact Concrete.Node.text_shifted before after (h p hp)
      have hmembers : ((first :: rest).map (Part.shifted before.length)).map Part.withoutField =
          ((first :: rest).map Part.withoutField).map (shifted before.length) := by
        rw [List.map_map, List.map_map]
        exact List.map_congr_left fun p _ => p.withoutField_shifted before.length
      rw [List.map_cons] at hwords hmembers ⊢
      rw [modifierLists, modifierLists, hwords, hmembers, spanOf_shifted, List.map_singleton,
        shifted_eq]

theorem parameterOf_shifted (k : Nat) (group : List Part) :
    parameterOf (group.map (Part.shifted k)) = (parameterOf group).map (shifted k) := by
  cases group with
  | nil => rfl
  | cons first rest =>
      have htype : (first.shifted k).raw.type = first.raw.type :=
        Concrete.Node.type_shifted k first.raw
      have hmembers : ((first :: rest).map (Part.shifted k)).map Part.node =
          ((first :: rest).map Part.node).map (shifted k) := by
        rw [List.map_map, List.map_map]
        rfl
      rw [List.map_cons] at hmembers ⊢
      rw [parameterOf, parameterOf, List.isEmpty_map, htype, spanOf_shifted, hmembers,
        Part.withoutField_shifted]
      split
      · rfl
      · rw [List.map_singleton, shifted_eq]

theorem withInferredType_shifted (k : Nat) (name : String) (nodes : List Node) :
    withInferredType name (nodes.map (shifted k)) =
      (withInferredType name nodes).map (shifted k) := by
  induction nodes with
  | nil => rfl
  | cons n rest ih =>
      have hasks : (n.shifted k).asksForInference = n.asksForInference := by
        simp only [asksForInference, shifted_eq]
      have hplaceholder : (n.shifted k).placeholder name = (n.placeholder name).shifted k := by
        simp [placeholder, shifted_eq]
      rw [List.map_cons, withInferredType, withInferredType, field_shifted, hasks, hplaceholder, ih]
      split_ifs <;> rfl

theorem childrenOf_shifted (before after : Bytes) (kind : Kind) {raw : Concrete.Node}
    {parts : List Part} (hraw : raw.AllWithin after.length)
    (hparts : ∀ p ∈ parts, p.raw.span.Within after.length) :
    childrenOf (before ++ after) kind (raw.shifted before.length)
        (parts.map (Part.shifted before.length)) =
      (childrenOf after kind raw parts).map (shifted before.length) := by
  have hstructural : (parts.map (Part.shifted before.length)).filter
        (fun p => p.raw.isStructural) =
      (parts.filter (fun p => p.raw.isStructural)).map (Part.shifted before.length) := by
    rw [List.filter_map]
    simp only [Function.comp_def, Part.shifted, Concrete.Node.isStructural_shifted]
  have hgathered : gatherModifiers (before ++ after) []
        ((parts.filter (fun p => p.raw.isStructural)).map (Part.shifted before.length)) =
      (gatherModifiers after [] (parts.filter (fun p => p.raw.isStructural))).map
        (shifted before.length) := by
    rw [← List.map_nil]
    apply gatherModifiers_map
    · intro p
      simp [Concrete.Node.isModifier, Part.shifted]
    · exact fun p _ => rfl
    · intro group hgroup
      refine modifierLists_shifted before after fun p hp => ?_
      exact hparts p (List.mem_filter.mp (hgroup.subset hp)).1
  cases kind with
  | parameterList =>
      apply flatMap_parameterOf_map
      · intro p
        simp [Concrete.Node.isComma, Part.shifted]
      · exact fun p => Concrete.Node.isStructural_shifted before.length p.raw
      · exact parameterOf_shifted before.length
  | variableDeclaration =>
      rw [childrenOf, childrenOf, hstructural, hgathered,
        Concrete.Node.declaredType_shifted before after hraw, withInferredType_shifted]
  | _ =>
      simp only [childrenOf]
      rw [hstructural, hgathered]

/-- Conversion moves with its source. -/
theorem ofConcrete_shifted (before after : Bytes) {raw : Concrete.Node}
    (h : raw.AllWithin after.length) :
    ofConcrete (before ++ after) (raw.shifted before.length) =
      (ofConcrete after raw).shifted before.length := by
  induction raw using Concrete.Node.branching.induction with
  | step raw ih =>
      have hparts : partsOf (before ++ after) (raw.shifted before.length).children =
          (partsOf after raw.children).map (Part.shifted before.length) := by
        rw [partsOf_eq_map, partsOf_eq_map, Concrete.Node.children_shifted, List.map_map,
          List.map_map]
        refine List.map_congr_left fun c hc => ?_
        simp only [Function.comp_apply, Part.shifted, ih c hc (h.child hc)]
      have hwithin : ∀ p ∈ partsOf after raw.children, p.raw.span.Within after.length := by
        intro p hp
        rw [partsOf_eq_map] at hp
        obtain ⟨c, hc, rfl⟩ := List.mem_map.mp hp
        exact (h.child hc).self
      rw [ofConcrete_eq, ofConcrete_eq, hparts, shifted_eq]
      simp only [assemble, Concrete.Node.type_shifted, Concrete.Node.span_shifted,
        Concrete.Node.field_shifted, Concrete.Node.text_shifted before after h.self,
        childrenOf_shifted before after _ h hwithin]

end CSharpAudit.Node
