import CSharpAudit.Proofs.Text.Distinct
import CSharpAudit.Proofs.Tree.Built
import CSharpAudit.Proofs.Tree.Spans

/-!
The shape of syntax trees. Whatever types, roles and names the concrete nodes
combine, a node shows its kind, its name and its modifiers as rules expect them,
and its children stand as rules expect them. Each way in which nodes are made
keeps to this, so every node of a tree does.
-/

namespace CSharpAudit

namespace Node

/-! What a node shows. -/

/-- What a node over `source` shows by its own kind, name and modifiers. -/
structure Labelled (source : Bytes) (n : Node) : Prop where
  kind_eq : n.kind ≠ .modifierList → n.inferred = false → n.kind = Kind.ofType n.type
  name_eq_none : n.kind ≠ .identifier → n.name = none
  name_eq_text : n.kind = .identifier → n.inferred = false → n.name = some (n.span.text source)
  modifiers_eq_nil : n.kind ≠ .modifierList → n.modifiers = []
  list_type : n.kind = .modifierList → n.type = "modifier_list"
  list_children : n.kind = .modifierList →
    n.children ≠ [] ∧ ∀ c ∈ n.children, c.type = "modifier"
  /-- The words of a list are those of its children, each once. -/
  list_modifiers : n.kind = .modifierList →
    n.modifiers.Nodup ∧
      ∀ word, word ∈ n.modifiers ↔ ∃ c ∈ n.children, Text.trim (c.span.text source) = word
  inferred_leaf : n.inferred = true →
    n.kind = .identifier ∧ (n.type = "implicit_type" ∨ n.type = "identifier") ∧
      n.field = some "type" ∧ n.name.isSome = true ∧ n.children = []

structure Arranged (n : Node) : Prop where
  inferred_parent : ∀ c ∈ n.children, c.inferred = true → n.kind = .variableDeclaration
  /-- No child in front of an inferred type has the role of a type. -/
  inferred_first : n.children.Pairwise fun a b => b.inferred = true → a.field ≠ some "type"
  lists_apart : n.children.IsChain fun a b => ¬(a.kind = .modifierList ∧ b.kind = .modifierList)
  parameters : n.kind = .parameterList →
    ∀ c ∈ n.children, c.kind = .parameter ∧ c.type = "parameter" ∧ c.field = none

structure WellFormed (source : Bytes) (n : Node) : Prop extends Labelled source n, Arranged n

theorem Labelled.of_plain {source : Bytes} {n : Node} (hkind : n.kind = Kind.ofType n.type)
    (hname : n.name = if n.kind = .identifier then some (n.span.text source) else none)
    (hmodifiers : n.modifiers = []) (hinferred : n.inferred = false) : Labelled source n := by
  have hlist : n.kind ≠ .modifierList := hkind ▸ Kind.ofType_ne_modifierList n.type
  constructor <;> simp_all

theorem labelled_ofConcrete (source : Bytes) (raw : Concrete.Node) :
    Labelled source (ofConcrete source raw) :=
  .of_plain (by simp) (by simp [Concrete.Node.text]) (by simp) (by simp)

theorem labelled_withoutField (source : Bytes) (raw : Concrete.Node) :
    Labelled source (Part.withoutField ⟨raw, ofConcrete source raw⟩) :=
  .of_plain (by simp [Part.withoutField]) (by simp [Part.withoutField, Concrete.Node.text])
    (by simp [Part.withoutField]) (by simp [Part.withoutField])

theorem labelled_placeholder {source : Bytes} {raw : Concrete.Node} (name : String)
    (hasks : raw.asksForInference source = true) :
    Labelled source ((ofConcrete source raw).placeholder name) := by
  have htype := Concrete.Node.type_of_asksForInference hasks
  constructor <;> simp [placeholder, htype]

theorem labelled_modifierLists {source : Bytes} {run : List Concrete.Node} {n : Node}
    (hrun : ∀ m ∈ run, m.type = "modifier") (hn : n ∈ modifierLists source (partsOf source run)) :
    Labelled source n := by
  have hmember : ∀ p ∈ partsOf source run,
      p.withoutField.type = "modifier" ∧ p.withoutField.span.text source = p.raw.text source := by
    intro p hp
    obtain ⟨m, hm, rfl⟩ := exists_of_mem_partsOf hp
    simp [Part.withoutField, hrun m hm, Concrete.Node.text]
  cases hparts : partsOf source run with
  | nil => simp [hparts, modifierLists] at hn
  | cons first rest =>
      rw [hparts] at hn hmember
      obtain rfl := List.mem_singleton.mp hn
      constructor
      case list_children =>
        refine fun _ => ⟨by simp, fun c hc => ?_⟩
        obtain ⟨p, hp, rfl⟩ := List.mem_map.mp hc
        exact (hmember p hp).1
      case list_modifiers =>
        refine fun _ => ⟨(distinctInOrder_eraseDups _).nodup, fun word => ?_⟩
        simp only [List.mem_eraseDups, List.mem_map, exists_exists_and_eq_and]
        refine exists_congr fun p => and_congr_right fun hp => ?_
        rw [(hmember p hp).2]
      all_goals simp

theorem labelled_parameterOf {source : Bytes} {group : List Concrete.Node} {n : Node}
    (hn : n ∈ parameterOf (partsOf source group)) : Labelled source n := by
  cases group with
  | nil => simp [partsOf, parameterOf] at hn
  | cons first rest =>
      rw [partsOf, parameterOf] at hn
      split at hn
      · obtain rfl := List.mem_singleton.mp hn
        exact labelled_withoutField source first
      · obtain rfl := List.mem_singleton.mp hn
        exact .of_plain (show Kind.parameter = Kind.ofType "parameter" by decide) rfl rfl rfl

theorem Built.labelled {source : Bytes} {n : Node} (h : Built source n) : Labelled source n := by
  cases h with
  | read raw => exact labelled_ofConcrete source raw
  | withoutField raw => exact labelled_withoutField source raw
  | placeholder raw name hasks => exact labelled_placeholder name hasks
  | modifierList run hrun n hn => exact labelled_modifierLists hrun hn
  | parameter group n hn => exact labelled_parameterOf hn

/-! How the children stand. -/

theorem Arranged.of_plain {n : Node}
    (h : ∀ c ∈ n.children, c.inferred = false ∧ c.kind ≠ .modifierList)
    (hparameters : n.kind = .parameterList →
      ∀ c ∈ n.children, c.kind = .parameter ∧ c.type = "parameter" ∧ c.field = none) :
    Arranged n where
  inferred_parent c hc hinferred := absurd hinferred (by simp [(h c hc).1])
  inferred_first := by
    refine List.pairwise_of_forall_mem_list fun a _ b hb hinferred => ?_
    exact absurd hinferred (by simp [(h b hb).1])
  lists_apart := by
    refine (List.pairwise_of_forall_mem_list fun a ha b _ hlists => ?_).isChain
    exact (h a ha).2 hlists.1
  parameters := hparameters

theorem Arranged.withoutField {p : Part} (h : Arranged p.node) : Arranged p.withoutField :=
  ⟨h.inferred_parent, h.inferred_first, h.lists_apart, h.parameters⟩

/-- A list of modifiers is followed by what ended its run, which is no list. -/
theorem isChain_gatherModifiers (source : Bytes) (run : List Part) {parts : List Part}
    (h : ∀ p ∈ parts, p.node.kind ≠ .modifierList) :
    (gatherModifiers source run parts).IsChain
      fun a b => ¬(a.kind = .modifierList ∧ b.kind = .modifierList) := by
  induction parts generalizing run with
  | nil => cases run <;> simp [gatherModifiers, modifierLists]
  | cons p rest ih =>
      obtain ⟨hp, hrest⟩ := List.forall_mem_cons.mp h
      rw [gatherModifiers]
      split
      · exact ih (run ++ [p]) hrest
      · have hlater : (p.node :: gatherModifiers source [] rest).IsChain
            fun a b => ¬(a.kind = .modifierList ∧ b.kind = .modifierList) :=
          List.isChain_cons.mpr ⟨fun _ _ hlists => hp hlists.1, ih [] hrest⟩
        cases run with
        | nil => exact hlater
        | cons first more => exact .cons_cons (fun hlists => hp hlists.2) hlater

theorem inferred_of_mem_gatherModifiers {source : Bytes} {parts : List Part}
    (h : ∀ p ∈ parts, p.node.inferred = false) {c : Node}
    (hc : c ∈ gatherModifiers source [] parts) : c.inferred = false := by
  rcases mem_gatherModifiers hc with ⟨p, hp, rfl⟩ | ⟨group, -, hc⟩
  · exact h p hp
  · cases group with
    | nil => simp [modifierLists] at hc
    | cons first rest =>
        obtain rfl := List.mem_singleton.mp hc
        rfl

theorem pairwise_withInferredType (name : String) {nodes : List Node}
    (h : ∀ n ∈ nodes, n.inferred = false) :
    (withInferredType name nodes).Pairwise fun a b =>
      b.inferred = true → a.field ≠ some "type" := by
  induction nodes with
  | nil => exact .nil
  | cons n rest ih =>
      obtain ⟨hn, hrest⟩ := List.forall_mem_cons.mp h
      rw [withInferredType]
      split
      · refine List.pairwise_cons.mpr ⟨fun b hb hinferred => ?_,
          List.pairwise_of_forall_mem_list fun a _ b hb hinferred => ?_⟩
        · exact absurd hinferred (by simp [hrest b hb])
        · exact absurd hinferred (by simp [hrest b hb])
      · next hfield => exact List.pairwise_cons.mpr ⟨fun _ _ _ => hfield, ih hrest⟩

theorem parameter_of_mem_parameterOf {source : Bytes} {group : List Concrete.Node} {c : Node}
    (hc : c ∈ parameterOf (partsOf source group)) :
    c.kind = .parameter ∧ c.type = "parameter" ∧ c.field = none ∧ c.inferred = false := by
  cases group with
  | nil => simp [partsOf, parameterOf] at hc
  | cons first rest =>
      rw [partsOf, parameterOf] at hc
      split at hc
      · next hsingle =>
        have htype : first.type = "parameter" := by simp_all
        have hkind : Kind.ofType "parameter" = .parameter := by decide
        obtain rfl := List.mem_singleton.mp hc
        simp [Part.withoutField, htype, hkind]
      · obtain rfl := List.mem_singleton.mp hc
        exact ⟨rfl, rfl, rfl, rfl⟩

theorem arranged_of_parameterList (source : Bytes) {raw : Concrete.Node}
    (hlist : Kind.ofType raw.type = .parameterList) : Arranged (ofConcrete source raw) := by
  have hmember : ∀ c ∈ (ofConcrete source raw).children,
      c.kind = .parameter ∧ c.type = "parameter" ∧ c.field = none ∧ c.inferred = false := by
    intro c hc
    rw [children_ofConcrete, hlist] at hc
    obtain ⟨group, hgroup, hc⟩ := List.mem_flatMap.mp hc
    have hread : ∀ p ∈ group, p.node = ofConcrete source p.raw := by
      intro p hp
      have hpart : p ∈ partsOf source raw.children := (sublist_of_mem_commaGroups hgroup).subset hp
      obtain ⟨m, -, rfl⟩ := exists_of_mem_partsOf hpart
      rfl
    exact parameter_of_mem_parameterOf (eq_partsOf hread ▸ hc)
  refine .of_plain (fun c hc => ?_) fun _ c hc => ?_
  · obtain ⟨hkind, -, -, hinferred⟩ := hmember c hc
    exact ⟨hinferred, by simp [hkind]⟩
  · obtain ⟨hkind, htype, hfield, -⟩ := hmember c hc
    exact ⟨hkind, htype, hfield⟩

theorem arranged_ofConcrete (source : Bytes) (raw : Concrete.Node) :
    Arranged (ofConcrete source raw) := by
  by_cases hlist : Kind.ofType raw.type = .parameterList
  · exact arranged_of_parameterList source hlist
  have hgathered : ∀ c ∈ gatherModifiers source []
      ((partsOf source raw.children).filter fun p => p.raw.isStructural), c.inferred = false := by
    refine fun c hc => inferred_of_mem_gatherModifiers (fun p hp => ?_) hc
    obtain ⟨m, -, rfl⟩ := exists_of_mem_partsOf (List.mem_filter.mp hp).1
    exact inferred_ofConcrete source m
  -- a child can only be inferred where the inference word is replaced
  have hinferred : (Kind.ofType raw.type = .variableDeclaration ∨
        ∀ c ∈ (ofConcrete source raw).children, c.inferred = false) ∧
      (ofConcrete source raw).children.Pairwise
        fun a b => b.inferred = true → a.field ≠ some "type" := by
    rw [children_ofConcrete]
    unfold childrenOf
    split
    · next hkind => exact absurd hkind hlist
    · next hkind => exact ⟨.inl hkind, pairwise_withInferredType _ hgathered⟩
    · refine ⟨.inr hgathered, List.pairwise_of_forall_mem_list fun a _ b hb hinferred => ?_⟩
      exact absurd hinferred (by simp [hgathered b hb])
  constructor
  case inferred_parent =>
    intro c hc hc'
    rw [kind_ofConcrete]
    refine hinferred.1.resolve_right fun hnone => ?_
    exact absurd hc' (by simp [hnone c hc])
  case inferred_first => exact hinferred.2
  case lists_apart =>
    rw [children_ofConcrete_eq_gatherModifiers source hlist]
    refine isChain_gatherModifiers source [] fun p hp => ?_
    exact kind_of_mem_reachedParts (List.mem_filter.mp hp).1
  case parameters =>
    intro hkind
    exact absurd (kind_ofConcrete source raw ▸ hkind) hlist

theorem arranged_modifierLists {source : Bytes} {run : List Concrete.Node} {n : Node}
    (hn : n ∈ modifierLists source (partsOf source run)) : Arranged n := by
  cases hparts : partsOf source run with
  | nil => simp [hparts, modifierLists] at hn
  | cons first rest =>
      rw [hparts] at hn
      obtain rfl := List.mem_singleton.mp hn
      refine .of_plain (fun c hc => ?_) (by simp)
      obtain ⟨p, hp, rfl⟩ := List.mem_map.mp hc
      obtain ⟨m, -, rfl⟩ := exists_of_mem_partsOf (hparts ▸ hp)
      simp [Part.withoutField, Kind.ofType_ne_modifierList]

theorem arranged_parameterOf {source : Bytes} {group : List Concrete.Node} {n : Node}
    (hn : n ∈ parameterOf (partsOf source group)) : Arranged n := by
  cases group with
  | nil => simp [partsOf, parameterOf] at hn
  | cons first rest =>
      rw [partsOf, parameterOf] at hn
      split at hn
      · obtain rfl := List.mem_singleton.mp hn
        exact (arranged_ofConcrete source first).withoutField
      · obtain rfl := List.mem_singleton.mp hn
        refine .of_plain (fun c hc => ?_) (by simp)
        obtain ⟨p, hp, rfl⟩ := List.mem_map.mp hc
        rw [← partsOf] at hp
        obtain ⟨m, -, rfl⟩ := exists_of_mem_partsOf hp
        simp [Kind.ofType_ne_modifierList]

theorem Built.arranged {source : Bytes} {n : Node} (h : Built source n) : Arranged n := by
  cases h with
  | read raw => exact arranged_ofConcrete source raw
  | withoutField raw => exact (arranged_ofConcrete source raw).withoutField
  | placeholder raw name hasks => exact .of_plain (by simp [Node.placeholder]) (fun _ => nofun)
  | modifierList run hrun n hn => exact arranged_modifierLists hn
  | parameter group n hn => exact arranged_parameterOf hn

theorem Built.wellFormed {source : Bytes} {n : Node} (h : Built source n) : n.WellFormed source :=
  { h.labelled, h.arranged with }

/-- A declaration infers one type at most: a second one would stand behind a child
in the role of a type. -/
theorem WellFormed.length_inferred_le {source : Bytes} {n : Node} (h : n.WellFormed source)
    (hchildren : ∀ c ∈ n.children, c.WellFormed source) :
    (n.children.filter Node.inferred).length ≤ 1 := by
  have hfirst := h.inferred_first.sublist (List.filter_sublist (p := Node.inferred))
  have hmember (c : Node) (hc : c ∈ n.children.filter Node.inferred) :
      c.inferred = true ∧ c.field = some "type" := by
    obtain ⟨hc, hinferred⟩ := List.mem_filter.mp hc
    obtain ⟨-, -, hfield, -, -⟩ := (hchildren c hc).inferred_leaf hinferred
    exact ⟨hinferred, hfield⟩
  match hinferred : n.children.filter Node.inferred with
  | [] => exact Nat.zero_le 1
  | [_] => exact Nat.le_refl 1
  | a :: b :: rest =>
      rw [hinferred] at hfirst hmember
      have hapart := (List.pairwise_cons.mp hfirst).1 b List.mem_cons_self
      have hb := hmember b (List.mem_cons_of_mem a List.mem_cons_self)
      exact absurd (hmember a List.mem_cons_self).2 (hapart hb.1)

end Node

/-- Lists of modifiers are the nodes that were made for runs of modifiers. -/
theorem Origin.Of.kind_eq_modifierList_iff {o : Origin} {n : Node} (h : o.Of n) :
    n.kind = .modifierList ↔ ∃ run, o = .modifierRun run := by
  cases o with
  | read raw => exact iff_of_false h.1 nofun
  | modifierRun run => exact iff_of_true h.1 ⟨run, rfl⟩
  | parameterGroup group => exact iff_of_false (by simp [h.1]) nofun

namespace Tree

/-- A sound text becomes a tree of well-formed nodes. Its root is not inferred, a
declaration infers one type at most, and the lists of modifiers are the nodes
that were made for runs of modifiers. -/
theorem parse_wellFormed (grammar : Grammar) (text : String)
    (h : (grammar (sourceOf text)).damaged = false) :
    ∃ tree, parse grammar text = .ok tree ∧ tree.source = sourceOf text ∧
      tree.root.inferred = false ∧
      (∀ n ∈ tree.root.preorder,
        n.WellFormed tree.source ∧ (n.children.filter Node.inferred).length ≤ 1) ∧
      List.Forall₂ (fun o n => n.kind = .modifierList ↔ ∃ run, o = Origin.modifierRun run)
        ((grammar (sourceOf text)).origins tree.source) tree.root.preorder := by
  have hnodes : ∀ n ∈ (Node.ofConcrete (sourceOf text) (grammar (sourceOf text))).preorder,
      n.WellFormed (sourceOf text) :=
    fun n hn => (Node.built_of_mem_preorder _ _ n hn).wellFormed
  refine ⟨_, parse_eq_ok h, rfl, Node.inferred_ofConcrete _ _, fun n hn => ⟨hnodes n hn, ?_⟩, ?_⟩
  · exact (hnodes n hn).length_inferred_le fun c hc => hnodes c (Node.branching.child_mem hn hc)
  · exact (Node.forall₂_origins_preorder _ _).imp fun _ _ ho => ho.kind_eq_modifierList_iff

/-- A declaration with a modifier in the role of a type, two runs of modifiers and
two children that name a type, and a parameter list in which a parameter has a
role and a modifier stands by itself. -/
def oddDeclarations : Concrete.Node :=
  .branch "compilation_unit" ⟨0, 43⟩
    [.branch "variable_declaration" ⟨0, 29⟩
      [.withField "type" (.branch "modifier" ⟨0, 6⟩ []), .branch "comment" ⟨6, 10⟩ [],
       .branch "modifier" ⟨10, 15⟩ [],
       .withField "type" (.branch "identifier" ⟨16, 19⟩ [.branch "block" ⟨16, 17⟩ []]),
       .branch "modifier" ⟨20, 22⟩ [], .withField "type" (.branch "implicit_type" ⟨23, 25⟩ []),
       .branch "variable_declarator" ⟨26, 29⟩
         [.token "=" ⟨27, 28⟩, .branch "integer_literal" ⟨28, 29⟩ []]],
     .branch "parameter_list" ⟨30, 43⟩
       [.token "(" ⟨30, 31⟩, .withField "name" (.branch "parameter" ⟨31, 36⟩ []),
        .token "," ⟨36, 37⟩, .branch "modifier" ⟨37, 40⟩ [], .branch "identifier" ⟨41, 42⟩ [],
        .token ")" ⟨42, 43⟩]]

/-- The modifiers form two lists, the first name of a type is replaced and the
second is not, and both parameters lose their roles. -/
theorem parse_wellFormed_oddDeclarations :
    oddDeclarations.damaged = false ∧
      ∃ tree, parse (fun _ => oddDeclarations) "static/**/const var in it x=1 (int a,ref b)" =
          .ok tree ∧
        (tree.root.preorder.filter fun n =>
            n.kind == .modifierList || n.kind == .identifier || n.kind == .parameter).map
          (fun n => (n.type, n.field, n.name, n.modifiers, n.inferred)) =
            [("modifier_list", none, none, ["static", "const"], false),
             ("identifier", some "type", some "int", [], true),
             ("modifier_list", none, none, ["in"], false),
             ("parameter", none, none, [], false), ("parameter", none, none, [], false),
             ("identifier", none, some "b", [], false)] ∧
        ∀ n ∈ tree.root.preorder, n.WellFormed tree.source := by
  have hsound : oddDeclarations.damaged = false := by decide
  obtain ⟨tree, hparse, -, -, hnodes, -⟩ := parse_wellFormed (fun _ => oddDeclarations)
    "static/**/const var in it x=1 (int a,ref b)" hsound
  refine ⟨hsound, tree, hparse, ?_, fun n hn => (hnodes n hn).1⟩
  obtain rfl := Except.ok.inj (hparse.symm.trans (parse_eq_ok hsound))
  decide +kernel

end Tree

end CSharpAudit
