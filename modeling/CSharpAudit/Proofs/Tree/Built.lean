import CSharpAudit.Proofs.Tree.Conservation

/-!
The ways in which nodes are made. Conversion makes nodes in five ways: what was
read becomes a node, with its role in its parent or without it; an inference word
becomes a placeholder; a run of modifiers becomes a list; and what stands between
two commas becomes a parameter. Every node of a syntax tree is made in one of
them, so what holds of all five holds of every node.
-/

namespace CSharpAudit

namespace Concrete.Node

theorem type_of_asksForInference {source : Bytes} {n : Node}
    (hasks : n.asksForInference source = true) :
    n.type = "implicit_type" ∨ n.type = "identifier" := by
  simp only [asksForInference, Bool.or_eq_true, Bool.and_eq_true, beq_iff_eq] at hasks
  exact hasks.imp_right And.left

variable {α : Type} {source : Bytes} {cut : Node → α}

theorem mem_cutAtInference {x : Node × α} {children : List (Node × α)}
    (hx : x ∈ cutAtInference source cut children) :
    x ∈ children ∨ x.1.namesType = true ∧ x.1.asksForInference source = true ∧ x.2 = cut x.1 ∧
      ∃ y ∈ children, y.1 = x.1 := by
  induction children with
  | nil => exact .inl hx
  | cons y rest ih =>
      obtain ⟨c, a⟩ := y
      rw [cutAtInference] at hx
      split at hx
      · next hnames =>
        split at hx
        · next hasks =>
          rcases List.mem_cons.mp hx with rfl | hx
          · exact .inr ⟨hnames, hasks, rfl, (c, a), List.mem_cons_self, rfl⟩
          · exact .inl (List.mem_cons_of_mem _ hx)
        · exact .inl hx
      · rcases List.mem_cons.mp hx with rfl | hx
        · exact .inl List.mem_cons_self
        rcases ih hx with hx | ⟨hnames, hasks, hcut, y, hy, hyx⟩
        · exact .inl (List.mem_cons_of_mem _ hx)
        · exact .inr ⟨hnames, hasks, hcut, y, List.mem_cons_of_mem _ hy, hyx⟩

theorem mem_reached {n : Node} {value : Node → α} {x : Node × α}
    (hx : x ∈ reached source cut n (n.children.map fun c => (c, value c))) :
    x.1 ∈ n.children ∧ (x.2 = value x.1 ∨ n.type = "variable_declaration" ∧
      x.1.namesType = true ∧ x.1.asksForInference source = true ∧ x.2 = cut x.1) := by
  have hchild : ∀ y ∈ n.children.map (fun c => (c, value c)),
      y.1 ∈ n.children ∧ y.2 = value y.1 := by
    intro y hy
    obtain ⟨c, hc, rfl⟩ := List.mem_map.mp hy
    exact ⟨hc, rfl⟩
  rw [reached] at hx
  split at hx
  · next hdecl =>
    rcases mem_cutAtInference hx with hx | ⟨hnames, hasks, hcut, y, hy, hyx⟩
    · exact ⟨(hchild x hx).1, .inl (hchild x hx).2⟩
    · exact ⟨hyx ▸ (hchild y hy).1, .inr ⟨hdecl, hnames, hasks, hcut⟩⟩
  · exact ⟨(hchild x hx).1, .inl (hchild x hx).2⟩

end Concrete.Node

namespace Node

/-! What a node that was read shows. -/

@[simp] theorem kind_ofConcrete (source : Bytes) (raw : Concrete.Node) :
    (ofConcrete source raw).kind = Kind.ofType raw.type := by
  rw [ofConcrete_eq]
  rfl

@[simp] theorem type_ofConcrete (source : Bytes) (raw : Concrete.Node) :
    (ofConcrete source raw).type = raw.type := by
  rw [ofConcrete_eq]
  rfl

@[simp] theorem name_ofConcrete (source : Bytes) (raw : Concrete.Node) :
    (ofConcrete source raw).name =
      if Kind.ofType raw.type = .identifier then some (raw.text source) else none := by
  rw [ofConcrete_eq]
  rfl

@[simp] theorem modifiers_ofConcrete (source : Bytes) (raw : Concrete.Node) :
    (ofConcrete source raw).modifiers = [] := by
  rw [ofConcrete_eq]
  rfl

@[simp] theorem inferred_ofConcrete (source : Bytes) (raw : Concrete.Node) :
    (ofConcrete source raw).inferred = false := by
  rw [ofConcrete_eq]
  rfl

theorem children_ofConcrete (source : Bytes) (raw : Concrete.Node) :
    (ofConcrete source raw).children =
      childrenOf source (Kind.ofType raw.type) raw (partsOf source raw.children) := by
  rw [ofConcrete_eq]
  rfl

/-! The ways in which nodes are made. -/

/-- The nodes that conversion makes. -/
inductive Built (source : Bytes) : Node → Prop
  | read (raw : Concrete.Node) : Built source (ofConcrete source raw)
  | withoutField (raw : Concrete.Node) :
      Built source (Part.withoutField ⟨raw, ofConcrete source raw⟩)
  | placeholder (raw : Concrete.Node) (name : String)
      (hasks : raw.asksForInference source = true) :
      Built source ((ofConcrete source raw).placeholder name)
  | modifierList (run : List Concrete.Node) (hrun : ∀ m ∈ run, m.type = "modifier") (n : Node)
      (hn : n ∈ modifierLists source (partsOf source run)) : Built source n
  | parameter (group : List Concrete.Node) (n : Node)
      (hn : n ∈ parameterOf (partsOf source group)) : Built source n

theorem eq_partsOf {source : Bytes} {parts : List Part}
    (h : ∀ p ∈ parts, p.node = ofConcrete source p.raw) :
    parts = partsOf source (parts.map Part.raw) := by
  induction parts with
  | nil => rfl
  | cons p rest ih =>
      obtain ⟨hp, hrest⟩ := List.forall_mem_cons.mp h
      rw [List.map_cons, partsOf, ← ih hrest, ← hp]

theorem exists_of_mem_partsOf {source : Bytes} {nodes : List Concrete.Node} {p : Part}
    (hp : p ∈ partsOf source nodes) : ∃ m ∈ nodes, p = ⟨m, ofConcrete source m⟩ := by
  rw [partsOf_eq_map] at hp
  obtain ⟨m, hm, rfl⟩ := List.mem_map.mp hp
  exact ⟨m, hm, rfl⟩

theorem mem_preorder_modifierLists {source : Bytes} {run : List Part} {c m : Node}
    (hc : c ∈ modifierLists source run) (hm : m ∈ c.preorder) :
    m = c ∨ ∃ p ∈ run, m = p.withoutField ∨ m ∈ p.node.preorder := by
  cases run with
  | nil => simp [modifierLists] at hc
  | cons first rest =>
      obtain rfl := List.mem_singleton.mp hc
      rcases branching.mem_preorder.mp hm with hm | ⟨d, hd, hm⟩
      · exact .inl hm
      · obtain ⟨p, hp, rfl⟩ := List.mem_map.mp hd
        rcases branching.mem_preorder.mp hm with hm | hm
        · exact .inr ⟨p, hp, .inl hm⟩
        · exact .inr ⟨p, hp, .inr (branching.mem_preorder.mpr (.inr hm))⟩

theorem mem_preorder_parameterOf {group : List Part} {c m : Node} (hc : c ∈ parameterOf group)
    (hm : m ∈ c.preorder) : m = c ∨ ∃ p ∈ group, m ∈ p.node.preorder := by
  cases group with
  | nil => simp [parameterOf] at hc
  | cons first rest =>
      rw [parameterOf] at hc
      split at hc
      · obtain rfl := List.mem_singleton.mp hc
        rcases branching.mem_preorder.mp hm with hm | hm
        · exact .inl hm
        · exact .inr ⟨first, List.mem_cons_self, branching.mem_preorder.mpr (.inr hm)⟩
      · obtain rfl := List.mem_singleton.mp hc
        rcases branching.mem_preorder.mp hm with hm | ⟨d, hd, hm⟩
        · exact .inl hm
        · obtain ⟨p, hp, rfl⟩ := List.mem_map.mp hd
          exact .inr ⟨p, hp, hm⟩

theorem mem_reachedParts {source : Bytes} {raw : Concrete.Node} {p : Part}
    (hp : p ∈ reachedParts source raw) :
    p.raw ∈ raw.children ∧ (p.node = ofConcrete source p.raw ∨
      raw.type = "variable_declaration" ∧ p.raw.namesType = true ∧
        p.raw.asksForInference source = true ∧
        p.node = (ofConcrete source p.raw).placeholder (raw.declaredType source)) := by
  obtain ⟨x, hx, rfl⟩ := List.mem_map.mp hp
  exact Concrete.Node.mem_reached hx

theorem forall_isModifier {run : List Part}
    (hchain : run.IsChain fun p q => p.sameRun q = true)
    (hany : run.any (·.raw.isModifier) = true) :
    ∀ p ∈ run, p.raw.isModifier = true := by
  induction run with
  | nil => simp
  | cons p rest ih =>
      cases rest with
      | nil => simpa using hany
      | cons q more =>
          obtain ⟨hpq, hmore⟩ := List.isChain_cons_cons.mp hchain
          rw [Part.sameRun, Concrete.Node.sameRun, Bool.and_eq_true] at hpq
          have hrest := ih hmore (by simp [hpq.2])
          exact List.forall_mem_cons.mpr ⟨hpq.1, hrest⟩

section Groups

variable {source : Bytes} {raw : Concrete.Node} {group : List Part}

theorem mem_reachedParts_of_mem_groups
    (hgroup : group ∈ raw.groups Part.raw (reachedParts source raw)) {p : Part} (hp : p ∈ group) :
    p ∈ reachedParts source raw := by
  have hflat : p ∈ (raw.groups Part.raw (reachedParts source raw)).flatten :=
    List.mem_flatten.mpr ⟨group, hgroup, hp⟩
  rw [Concrete.Node.flatten_groups] at hflat
  exact (List.mem_filter.mp hflat).1

theorem node_eq_of_parameter_list (hlist : raw.type = "parameter_list")
    (hgroup : group ∈ raw.groups Part.raw (reachedParts source raw)) :
    ∀ p ∈ group, p.node = ofConcrete source p.raw := by
  intro p hp
  obtain ⟨-, hnode | ⟨hdecl, -⟩⟩ := mem_reachedParts (mem_reachedParts_of_mem_groups hgroup hp)
  · exact hnode
  · exact absurd (hlist.symm.trans hdecl) (by decide)

theorem modifier_of_any_isModifier (hlist : raw.type ≠ "parameter_list")
    (hgroup : group ∈ raw.groups Part.raw (reachedParts source raw))
    (hany : group.any (·.raw.isModifier) = true) :
    ∀ p ∈ group, p.raw.type = "modifier" ∧ p.node = ofConcrete source p.raw := by
  intro p hp
  have hpart := mem_reachedParts_of_mem_groups hgroup hp
  rw [Concrete.Node.groups, if_neg hlist] at hgroup
  have htype : p.raw.type = "modifier" :=
    beq_iff_eq.mp (forall_isModifier (List.isChain_of_mem_splitBy hgroup) hany p hp)
  obtain ⟨-, hnode | ⟨-, hnames, -⟩⟩ := mem_reachedParts hpart
  · exact ⟨htype, hnode⟩
  · simp [Concrete.Node.namesType, htype] at hnames

end Groups

theorem mem_children_ofConcrete {source : Bytes} {raw : Concrete.Node} {c : Node} :
    c ∈ (ofConcrete source raw).children ↔
      ∃ group ∈ raw.groups Part.raw (reachedParts source raw), c ∈ formed source raw group := by
  rw [children_ofConcrete, childrenOf_eq, List.mem_flatMap]

theorem children_ofConcrete_eq_gatherModifiers (source : Bytes) {raw : Concrete.Node}
    (hlist : Kind.ofType raw.type ≠ .parameterList) :
    (ofConcrete source raw).children =
      gatherModifiers source [] ((reachedParts source raw).filter fun p => p.raw.isStructural) := by
  have htype : raw.type ≠ "parameter_list" := by
    rintro htype
    exact hlist (htype ▸ by decide)
  rw [children_ofConcrete, childrenOf_eq, gatherModifiers_eq_groups source htype]

theorem kind_of_mem_reachedParts {source : Bytes} {raw : Concrete.Node} {p : Part}
    (hp : p ∈ reachedParts source raw) : p.node.kind ≠ .modifierList := by
  obtain ⟨-, hnode | ⟨-, -, -, hnode⟩⟩ := mem_reachedParts hp
  · rw [hnode, kind_ofConcrete]
    exact Kind.ofType_ne_modifierList p.raw.type
  · rw [hnode]
    simp [placeholder]

/-- Every node of a syntax tree is made in one of the five ways. -/
theorem built_of_mem_preorder (source : Bytes) (raw : Concrete.Node) :
    ∀ m ∈ (ofConcrete source raw).preorder, Built source m := by
  induction raw using Concrete.Node.branching.induction with
  | step raw ih =>
      intro m hm
      rcases branching.mem_preorder.mp hm with rfl | ⟨c, hc, hm⟩
      · exact .read raw
      obtain ⟨group, hgroup, hc⟩ := mem_children_ofConcrete.mp hc
      have hbelow (p : Part) (hp : p ∈ group) (hm : m ∈ p.node.preorder) : Built source m := by
        obtain ⟨hchild, hnode | ⟨-, -, hasks, hnode⟩⟩ :=
          mem_reachedParts (mem_reachedParts_of_mem_groups hgroup hp)
        · exact ih p.raw hchild m (hnode ▸ hm)
        · rw [hnode] at hm
          obtain rfl : m = (ofConcrete source p.raw).placeholder (raw.declaredType source) := by
            simpa [preorder_eq, placeholder, preorderAll] using hm
          exact .placeholder p.raw _ hasks
      rw [formed] at hc
      split at hc
      · next hlist =>
        have hread := node_eq_of_parameter_list hlist hgroup
        rcases mem_preorder_parameterOf hc hm with rfl | ⟨p, hp, hm⟩
        · exact .parameter (group.map Part.raw) m (eq_partsOf hread ▸ hc)
        · exact hbelow p hp hm
      · next hlist =>
        rw [gathered] at hc
        split at hc
        · next hany =>
          have hrun := modifier_of_any_isModifier hlist hgroup hany
          have hread : ∀ p ∈ group, p.node = ofConcrete source p.raw := fun p hp => (hrun p hp).2
          rcases mem_preorder_modifierLists hc hm with rfl | ⟨p, hp, rfl | hm⟩
          · refine .modifierList (group.map Part.raw) ?_ m (eq_partsOf hread ▸ hc)
            exact List.forall_mem_map.mpr fun p hp => (hrun p hp).1
          · have hpart : p = ⟨p.raw, ofConcrete source p.raw⟩ := by rw [← hread p hp]
            rw [hpart]
            exact .withoutField p.raw
          · exact hbelow p hp hm
        · obtain ⟨p, hp, rfl⟩ := List.mem_map.mp hc
          exact hbelow p hp hm

end Node

end CSharpAudit
