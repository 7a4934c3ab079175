import CSharpAudit.Proofs.Tree.Origins
import CSharpAudit.Proofs.Tree.Parts
import CSharpAudit.Proofs.Tree.Preorder
import CSharpAudit.Tree.Parse

/-!
Conversion loses and repeats nothing. Every node of a syntax tree comes from the
origin in its place, so the nodes that were read are the nodes that are reached,
in their order, and one more node is made for each run of modifiers and for each
group that needs a parameter around it.

The conversion goes through the parts of a node in loops that keep a group open,
and replaces the inference word when the groups are done. Here it is told in one
step: the parts, the word already replaced, are cut into groups, and each group
becomes its nodes.
-/

namespace CSharpAudit

theorem Kind.ofType_eq_iff {kind : Kind} (hlist : kind ≠ .modifierList) (hother : kind ≠ .other)
    {type : String} : Kind.ofType type = kind ↔ type = kind.name := by
  constructor
  · intro h
    rw [Kind.ofType] at h
    split at h
    · exact absurd h.symm hother
    · next k _ hk =>
      rw [h, Kind.ofName?] at hk
      have hname : (kind.name == type) = true :=
        List.find?_some (p := fun k : Kind => k.name == type) hk
      exact (beq_iff_eq.mp hname).symm
    · exact absurd h.symm hother
  · rintro rfl
    cases kind with
    | modifierList => exact absurd rfl hlist
    | other => exact absurd rfl hother
    | _ => decide

theorem Kind.ofType_ne_modifierList (type : String) : Kind.ofType type ≠ .modifierList := by
  rw [Kind.ofType]
  split <;> simp_all

namespace Node

theorem withInferredType_modifierLists_append (source : Bytes) (name : String) (run : List Part)
    (nodes : List Node) :
    withInferredType name (modifierLists source run ++ nodes) =
      modifierLists source run ++ withInferredType name nodes := by
  cases run with
  | nil => rfl
  | cons first rest => simp [modifierLists, withInferredType]

theorem field_ofConcrete (source : Bytes) (raw : Concrete.Node) :
    (ofConcrete source raw).field = raw.field := by
  rw [ofConcrete_eq]
  rfl

theorem asksForInference_ofConcrete (source : Bytes) (raw : Concrete.Node) :
    (ofConcrete source raw).asksForInference = raw.asksForInference source := by
  have hkind : Kind.ofType raw.type = .identifier ↔ raw.type = "identifier" :=
    Kind.ofType_eq_iff (by decide) (by decide)
  rw [ofConcrete_eq, asksForInference, Concrete.Node.asksForInference, assemble]
  by_cases hword : raw.type = "identifier"
  · simp only [hword, beq_self_eq_true, Bool.true_and]
    rfl
  · simp [hkind, hword]

def Part.ofPair (x : Concrete.Node × Node) : Part :=
  ⟨x.1, x.2⟩

theorem partsOf_eq_map_ofPair (source : Bytes) (nodes : List Concrete.Node) :
    partsOf source nodes = (nodes.map fun c => (c, ofConcrete source c)).map Part.ofPair := by
  rw [partsOf_eq_map, List.map_map]
  rfl

/-- The inference word may be replaced before the modifiers are gathered. -/
theorem withInferredType_gatherModifiers (source : Bytes) (name : String)
    (children : List Concrete.Node) (run : List Part) :
    withInferredType name (gatherModifiers source run
        ((partsOf source children).filter fun p => p.raw.isStructural)) =
      gatherModifiers source run
        (((Concrete.Node.cutAtInference source (fun c => (ofConcrete source c).placeholder name)
          (children.map fun c => (c, ofConcrete source c))).map Part.ofPair).filter
            fun p => p.raw.isStructural) := by
  induction children generalizing run with
  | nil =>
      have hrun := withInferredType_modifierLists_append source name run []
      rwa [List.append_nil, withInferredType, List.append_nil] at hrun
  | cons c rest ih =>
      rw [partsOf, List.map_cons, Concrete.Node.cutAtInference]
      -- only a structural child that is no modifier can be the one that names the type: the
      -- others are left out or end up in a list, and a list has no role
      by_cases hplain : c.isStructural = false
      · simp [Concrete.Node.namesType, Part.ofPair, hplain, ih]
      rw [Bool.not_eq_false] at hplain
      by_cases hmodifier : c.type = "modifier"
      · simp [Concrete.Node.namesType, Part.ofPair, Concrete.Node.isModifier, gatherModifiers,
          hplain, hmodifier, ih]
      by_cases htype : c.field = some "type"
      · cases hword : c.asksForInference source <;>
          simp [Concrete.Node.namesType, Part.ofPair, Concrete.Node.isModifier, gatherModifiers,
            hplain, hmodifier, withInferredType_modifierLists_append, withInferredType,
            field_ofConcrete, htype, asksForInference_ofConcrete, hword, partsOf_eq_map_ofPair]
      · simp [Concrete.Node.namesType, Part.ofPair, Concrete.Node.isModifier, gatherModifiers,
          hplain, hmodifier, withInferredType_modifierLists_append, withInferredType,
          field_ofConcrete, htype, ih]

/-! What a group of parts becomes, beside the origins that it brings. -/

/-- A part comes from a child with its origins if its nodes do. -/
structure Part.ComesFrom (x : Concrete.Node × List Origin) (p : Part) : Prop where
  raw : x.1 = p.raw
  shown : x.1.ShownBy p.node
  nodes : List.Forall₂ Origin.Of x.2 p.node.preorder

theorem Part.ComesFrom.withoutField {x : Concrete.Node × List Origin} {p : Part}
    (h : p.ComesFrom x) : List.Forall₂ Origin.Of x.2 p.withoutField.preorder := by
  have hnodes := h.nodes
  rw [preorder_eq, List.forall₂_cons_right_iff] at hnodes
  obtain ⟨o, os, ho, hos, hx⟩ := hnodes
  have hself : o.Of p.withoutField := by
    cases o <;> exact ho
  rw [hx, preorder_eq]
  exact .cons hself hos

def reachedParts (source : Bytes) (raw : Concrete.Node) : List Part :=
  (raw.reached source (fun c => (ofConcrete source c).placeholder (raw.declaredType source))
    (raw.children.map fun c => (c, ofConcrete source c))).map Part.ofPair

def formed (source : Bytes) (raw : Concrete.Node) (group : List Part) : List Node :=
  if raw.type = "parameter_list" then parameterOf group else gathered source group

theorem gatherModifiers_eq_groups (source : Bytes) {raw : Concrete.Node}
    (hlist : raw.type ≠ "parameter_list") (parts : List Part) :
    gatherModifiers source [] (parts.filter fun p => p.raw.isStructural) =
      (raw.groups Part.raw parts).flatMap (formed source raw) := by
  have hformed : formed source raw = gathered source := by
    funext group
    rw [formed, if_neg hlist]
  rw [gatherModifiers_eq_flatMap_splitBy source (by simp), Concrete.Node.groups, if_neg hlist,
    hformed]
  rfl

theorem flatMap_parameterOf_eq_groups (source : Bytes) {raw : Concrete.Node}
    (hlist : raw.type = "parameter_list") (parts : List Part) :
    (commaGroups [] parts).flatMap parameterOf =
      (raw.groups Part.raw parts).flatMap (formed source raw) := by
  have hformed : formed source raw = parameterOf := by
    funext group
    rw [formed, if_pos hlist]
  have hhead : ∀ groups : List (List Part), groups.modifyHead ([] ++ ·) = groups := by
    intro groups
    cases groups <;> rfl
  rw [commaGroups_eq_splitOnP, hhead, Concrete.Node.groups, if_pos hlist, hformed]

theorem childrenOf_eq (source : Bytes) (raw : Concrete.Node) :
    childrenOf source (Kind.ofType raw.type) raw (partsOf source raw.children) =
      (raw.groups Part.raw (reachedParts source raw)).flatMap (formed source raw) := by
  have hlistKind : Kind.ofType raw.type = .parameterList ↔ raw.type = "parameter_list" :=
    Kind.ofType_eq_iff (by decide) (by decide)
  have hdeclKind : Kind.ofType raw.type = .variableDeclaration ↔
      raw.type = "variable_declaration" := Kind.ofType_eq_iff (by decide) (by decide)
  rw [reachedParts, Concrete.Node.reached]
  unfold childrenOf
  split
  · next hkind =>
    have hlist := hlistKind.mp hkind
    rw [if_neg (by simp [hlist]), ← partsOf_eq_map_ofPair,
      flatMap_parameterOf_eq_groups source hlist]
  · next hkind =>
    have hdecl := hdeclKind.mp hkind
    have hlist : raw.type ≠ "parameter_list" := by simp [hdecl]
    rw [if_pos hdecl, withInferredType_gatherModifiers, gatherModifiers_eq_groups source hlist]
  · next hlist hdecl =>
    rw [if_neg fun h => hdecl (hdeclKind.mpr h), ← partsOf_eq_map_ofPair,
      gatherModifiers_eq_groups source fun h => hlist (hlistKind.mpr h)]

theorem shownBy_ofConcrete (source : Bytes) (c : Concrete.Node) :
    c.ShownBy (ofConcrete source c) := by
  rw [ofConcrete_eq]
  exact ⟨rfl, rfl⟩

theorem forall₂_reachedParts {source : Bytes} {raw : Concrete.Node}
    (h : ∀ c ∈ raw.children,
      List.Forall₂ Origin.Of (c.origins source) (ofConcrete source c).preorder) :
    List.Forall₂ Part.ComesFrom
      (raw.reached source (fun c => [.read c]) (raw.children.map fun c => (c, c.origins source)))
      (reachedParts source raw) := by
  have hword : ∀ c, c.asksForInference source = true →
      Part.ComesFrom (c, [.read c])
        ⟨c, (ofConcrete source c).placeholder (raw.declaredType source)⟩ := by
    intro c _
    obtain ⟨htype, hspan⟩ := shownBy_ofConcrete source c
    exact ⟨rfl, ⟨htype, hspan⟩, .cons ⟨by simp, htype, hspan⟩ .nil⟩
  have hchildren := Concrete.Node.forall₂_reached
    (R := fun c os n => Part.ComesFrom (c, os) ⟨c, n⟩) hword
    fun c hc => ⟨rfl, shownBy_ofConcrete source c, h c hc⟩
  rw [reachedParts, List.forall₂_map_right_iff]
  refine hchildren.imp fun x y hxy => ?_
  obtain ⟨hsame, hfrom⟩ := hxy
  exact ⟨hsame, hfrom.shown, hfrom.nodes⟩

theorem needsParameter_cons (first : Part) (rest : List Part) :
    Concrete.Node.needsParameter ((first :: rest).map Part.raw) =
      !(rest.isEmpty && first.raw.type == "parameter") := by
  cases rest with
  | nil => simp [Concrete.Node.needsParameter, bne]
  | cons second more => simp [Concrete.Node.needsParameter]

theorem parameterOf_of_needsParameter {parts : List Part}
    (h : Concrete.Node.needsParameter (parts.map Part.raw) = true) :
    ∃ around, parameterOf parts = [around] ∧ around.kind = .parameter ∧
      around.children = parts.map Part.node := by
  cases parts with
  | nil => simp [Concrete.Node.needsParameter] at h
  | cons first rest =>
      rw [needsParameter_cons, Bool.not_eq_true'] at h
      rw [parameterOf, h]
      exact ⟨_, rfl, rfl, rfl⟩

theorem parameterOf_of_not_needsParameter {parts : List Part}
    (h : Concrete.Node.needsParameter (parts.map Part.raw) = false) :
    parameterOf parts = parts.map Part.withoutField := by
  cases parts with
  | nil => rfl
  | cons first rest =>
      rw [needsParameter_cons, Bool.not_eq_false'] at h
      have hrest : rest = [] := List.isEmpty_iff.mp (Bool.and_eq_true_iff.mp h).1
      rw [parameterOf, if_pos h, hrest, List.map_singleton]

theorem modifierLists_of_isModifier (source : Bytes) {parts : List Part}
    (h : parts.any (·.raw.isModifier) = true) :
    ∃ list, modifierLists source parts = [list] ∧ list.kind = .modifierList ∧
      list.children = parts.map Part.withoutField := by
  cases parts with
  | nil => simp at h
  | cons first rest => exact ⟨_, rfl, rfl, rfl⟩

section Group

variable {group : List (Concrete.Node × List Origin)} {parts : List Part}

theorem map_raw_of_comesFrom (h : List.Forall₂ Part.ComesFrom group parts) :
    group.map Prod.fst = parts.map Part.raw := by
  rw [← List.forall₂_eq_eq_eq, List.forall₂_map_left_iff, List.forall₂_map_right_iff]
  exact h.imp fun _ _ hp => hp.raw

theorem forall₂_shownBy_map {f : Part → Node}
    (hf : ∀ x p, Part.ComesFrom x p → x.1.ShownBy (f p))
    (h : List.Forall₂ Part.ComesFrom group parts) :
    List.Forall₂ Concrete.Node.ShownBy (parts.map Part.raw) (parts.map f) := by
  rw [← map_raw_of_comesFrom h, List.forall₂_map_left_iff, List.forall₂_map_right_iff]
  exact h.imp hf

theorem forall₂_of_map {f : Part → Node}
    (hf : ∀ x p, Part.ComesFrom x p → List.Forall₂ Origin.Of x.2 (f p).preorder)
    (h : List.Forall₂ Part.ComesFrom group parts) :
    List.Forall₂ Origin.Of (group.flatMap Prod.snd) (preorderAll (parts.map f)) := by
  rw [preorderAll_eq_flatMap, List.flatMap_map]
  exact List.rel_flatMap h hf

theorem forall₂_of_single {o : Origin} {os : List Origin} {n : Node} (ho : o.Of n)
    (hos : List.Forall₂ Origin.Of os (preorderAll n.children)) :
    List.Forall₂ Origin.Of (o :: os) (preorderAll [n]) := by
  rw [preorderAll, preorderAll, List.append_nil, preorder_eq]
  exact .cons ho hos

theorem forall₂_formed (source : Bytes) (raw : Concrete.Node)
    (h : List.Forall₂ Part.ComesFrom group parts) :
    List.Forall₂ Origin.Of (raw.groupOrigins group) (preorderAll (formed source raw parts)) := by
  have hnodes : List.Forall₂ Origin.Of (group.flatMap Prod.snd)
      (preorderAll (parts.map Part.node)) := forall₂_of_map (fun _ _ hp => hp.nodes) h
  have hbare : List.Forall₂ Origin.Of (group.flatMap Prod.snd)
      (preorderAll (parts.map Part.withoutField)) :=
    forall₂_of_map (fun _ _ hp => hp.withoutField) h
  rw [Concrete.Node.groupOrigins, Concrete.Node.made?, formed, map_raw_of_comesFrom h]
  split
  · cases hneeds : Concrete.Node.needsParameter (parts.map Part.raw) with
    | false =>
        rw [parameterOf_of_not_needsParameter hneeds]
        exact hbare
    | true =>
        obtain ⟨around, haround, hkind, hchildren⟩ := parameterOf_of_needsParameter hneeds
        rw [haround]
        refine forall₂_of_single ⟨hkind, ?_⟩ (hchildren ▸ hnodes)
        exact hchildren ▸ forall₂_shownBy_map (fun _ _ hp => hp.shown) h
  · have hany : (parts.map Part.raw).any Concrete.Node.isModifier =
        parts.any (·.raw.isModifier) := List.any_map
    rw [gathered, hany]
    cases hrun : parts.any (·.raw.isModifier) with
    | false => exact hnodes
    | true =>
        obtain ⟨list, hlist, hkind, hchildren⟩ := modifierLists_of_isModifier source hrun
        rw [if_pos rfl, if_pos rfl, hlist]
        refine forall₂_of_single ⟨hkind, ?_⟩ (hchildren ▸ hbare)
        exact hchildren ▸ forall₂_shownBy_map (fun _ _ hp => hp.shown) h

end Group

theorem forall₂_origins_preorder (source : Bytes) (raw : Concrete.Node) :
    List.Forall₂ Origin.Of (raw.origins source) (ofConcrete source raw).preorder := by
  induction raw using Concrete.Node.branching.induction with
  | step raw ih =>
      have hself : (Origin.read raw).Of (ofConcrete source raw) := by
        rw [ofConcrete_eq]
        exact ⟨Kind.ofType_ne_modifierList raw.type, rfl, rfl⟩
      have hgroups := Concrete.Node.forall₂_groups (fun _ _ h => Part.ComesFrom.raw h) raw
        (forall₂_reachedParts ih)
      rw [Concrete.Node.origins_eq, preorder_eq]
      refine .cons hself ?_
      rw [ofConcrete_eq, assemble]
      simp only []
      rw [childrenOf_eq, preorderAll_eq_flatMap, List.flatMap_assoc]
      refine List.rel_flatMap hgroups fun group parts hgroup => ?_
      rw [← preorderAll_eq_flatMap]
      exact forall₂_formed source raw hgroup

end Node

namespace Tree

/-- A sound text loses and repeats nothing on the way to its tree. Every node comes
from its origin; those that were read are the nodes that are reached, in order;
and there is one more for each run of modifiers below a node whose children are
reached and for each group that needs a parameter around it. -/
theorem ofRead_accounts_for_visits (source : Bytes) (raw : Concrete.Node)
    (h : raw.damaged = false) :
    ∃ tree, ofRead source raw = .ok tree ∧
      List.Forall₂ Origin.Of (raw.origins source) tree.root.preorder ∧
      (raw.origins source).filterMap Origin.read? =
        (raw.visits source).map Concrete.Node.Visit.node ∧
      (Origin.readNodes (raw.origins source) tree.root.preorder).map
          (fun n => (n.type, n.span)) =
        (raw.visits source).map (fun v => (v.node.type, v.node.span)) ∧
      tree.root.size = (raw.visits source).length +
        ((raw.visits source).flatMap Concrete.Node.Visit.modifierRuns).length +
        ((raw.visits source).flatMap Concrete.Node.Visit.wrappedGroups).length := by
  have hof := Node.forall₂_origins_preorder source raw
  have haccounts := raw.accounts_origins source
  refine ⟨⟨Node.ofConcrete source raw, source⟩, ?_, hof, haccounts.read, ?_, ?_⟩
  · rw [ofRead, h]
    rfl
  · rw [Origin.map_readNodes hof, haccounts.read, List.map_map]
    rfl
  · rw [← haccounts.length_eq, hof.length_eq]
    rfl

/-- Two runs of modifiers, a parameter and the parts of another, and a `var`. -/
def mixedMethod : Concrete.Node :=
  .branch "method_declaration" ⟨0, 53⟩
    [.branch "modifier" ⟨0, 6⟩ [], .branch "attribute_list" ⟨6, 9⟩ [],
     .branch "modifier" ⟨9, 15⟩ [], .branch "predefined_type" ⟨16, 20⟩ [],
     .branch "identifier" ⟨21, 22⟩ [],
     .branch "parameter_list" ⟨22, 43⟩
       [.token "(" ⟨22, 23⟩,
        .branch "parameter" ⟨23, 28⟩
          [.branch "predefined_type" ⟨23, 26⟩ [], .branch "identifier" ⟨27, 28⟩ []],
        .token "," ⟨28, 29⟩, .token "params" ⟨29, 35⟩, .branch "array_type" ⟨36, 41⟩ [],
        .branch "identifier" ⟨41, 42⟩ [], .token ")" ⟨42, 43⟩],
     .branch "block" ⟨43, 53⟩
       [.branch "variable_declaration" ⟨44, 51⟩
         [.withField "type" (.branch "implicit_type" ⟨44, 47⟩ [.branch "identifier" ⟨44, 47⟩ []]),
          .branch "variable_declarator" ⟨48, 51⟩
            [.branch "identifier" ⟨48, 49⟩ [], .token "=" ⟨49, 50⟩,
             .branch "integer_literal" ⟨50, 51⟩ []]]]]

theorem ofRead_accounts_mixedMethod :
    mixedMethod.damaged = false ∧
      ∃ tree, ofRead (sourceOf "public[A]static void F(int b,params int[]a)\x7bvar x=1;\x7d")
          mixedMethod = .ok tree ∧ tree.root.size = 18 + 2 + 1 := by
  have hsound : mixedMethod.damaged = false := by decide
  obtain ⟨tree, htree, -, -, -, hsize⟩ := ofRead_accounts_for_visits
    (sourceOf "public[A]static void F(int b,params int[]a)\x7bvar x=1;\x7d") mixedMethod hsound
  refine ⟨hsound, tree, htree, hsize.trans ?_⟩
  decide

def hiddenModifier : Concrete.Node :=
  .branch "compilation_unit" ⟨0, 5⟩
    [.branch "variable_declaration" ⟨0, 5⟩
      [.withField "type" (.branch "implicit_type" ⟨0, 3⟩ [.branch "modifier" ⟨0, 3⟩ []])]]

/-- No list is made for a modifier below an inference word, although the word itself
is reached. -/
theorem size_hiddenModifier_ne :
    hiddenModifier.damaged = false ∧
      ∃ tree, ofRead (sourceOf "var x") hiddenModifier = .ok tree ∧
        tree.root.size ≠ (hiddenModifier.visits (sourceOf "var x")).length +
          ((hiddenModifier.visits (sourceOf "var x")).flatMap fun v =>
            if v.node.type = "parameter_list" then [] else v.node.modifierRuns).length +
          ((hiddenModifier.visits (sourceOf "var x")).flatMap
            Concrete.Node.Visit.wrappedGroups).length :=
  ⟨by decide, _, rfl, by decide⟩

end Tree

end CSharpAudit
