import CSharpAudit.Proofs.Source.Layout
import CSharpAudit.Proofs.Tree.Parts
import CSharpAudit.Proofs.Tree.Preorder

/-!
Spans of syntax trees. A node keeps the span of its concrete form, and the
nodes that stand for a group, the lists of modifiers and the wrapped
parameters, reach from the start of the first member of the group to the end
of the last. So nothing starts or ends where no concrete node does, and spans
that nest and keep their order in the concrete tree do so in the syntax tree.
-/

namespace CSharpAudit.Node

/-! The spans of the groups that the parts of a node form, and their members. -/

@[simp] theorem span_ofConcrete (source : Bytes) (raw : Concrete.Node) :
    (ofConcrete source raw).span = raw.span := by
  rw [ofConcrete_eq]
  rfl

theorem spanOf_eq_hull (first : Part) (rest : List Part) :
    spanOf first rest = Span.hull first.raw.span (rest.map (fun p => p.raw.span)) := by
  have hlast (p : Part) : (rest.getLastD p).raw.span =
      (rest.map (fun p => p.raw.span)).getLastD p.raw.span := by
    induction rest generalizing p with
    | nil => rfl
    | cons q more ih => rw [List.getLastD_cons, List.map_cons, List.getLastD_cons, ih]
  rw [spanOf, Span.hull, List.getLastD_cons, hlast]

def hulls : List Part → List Span
  | [] => []
  | first :: rest => [spanOf first rest]

theorem map_span_modifierLists (source : Bytes) (run : List Part) :
    (modifierLists source run).map Node.span = hulls run := by
  cases run <;> rfl

theorem map_span_parameterOf {group : List Part}
    (h : ∀ p ∈ group, p.node.span = p.raw.span) :
    (parameterOf group).map Node.span = hulls group := by
  cases group with
  | nil => rfl
  | cons first rest =>
      rw [parameterOf]
      split
      · next hsingle =>
        have hrest : rest = [] := by simp_all
        subst hrest
        exact congrArg (fun s => [s]) (h first List.mem_cons_self)
      · rfl

theorem mem_gatherModifiers {source : Bytes} {run parts : List Part} {c : Node}
    (h : c ∈ gatherModifiers source run parts) :
    (∃ p ∈ parts, c = p.node) ∨
      ∃ group : List Part, group.Sublist (run ++ parts) ∧ c ∈ modifierLists source group := by
  induction parts generalizing run with
  | nil => exact .inr ⟨run, by simp, h⟩
  | cons p rest ih =>
      rw [gatherModifiers] at h
      split at h
      · rcases ih h with ⟨q, hq, rfl⟩ | ⟨group, hgroup, hc⟩
        · exact .inl ⟨q, List.mem_cons_of_mem p hq, rfl⟩
        · exact .inr ⟨group, by simpa using hgroup, hc⟩
      · rcases List.mem_append.mp h with hrun | h
        · exact .inr ⟨run, List.sublist_append_left run _, hrun⟩
        rcases List.mem_cons.mp h with rfl | h
        · exact .inl ⟨p, List.mem_cons_self, rfl⟩
        rcases ih h with ⟨q, hq, rfl⟩ | ⟨group, hgroup, hc⟩
        · exact .inl ⟨q, List.mem_cons_of_mem p hq, rfl⟩
        · have hlater : group.Sublist (run ++ p :: rest) :=
            (hgroup.cons p).trans (List.sublist_append_right run (p :: rest))
          exact .inr ⟨group, hlater, hc⟩

theorem sublist_of_mem_commaGroups {before parts group : List Part}
    (h : group ∈ commaGroups before parts) : group.Sublist (before ++ parts) := by
  induction parts generalizing before with
  | nil =>
      obtain rfl := List.mem_singleton.mp h
      simp
  | cons p rest ih =>
      rw [commaGroups] at h
      split at h
      · rcases List.mem_cons.mp h with rfl | h
        · exact List.sublist_append_left group _
        · exact ((ih h).cons p).trans (List.sublist_append_right before (p :: rest))
      · split at h
        · simpa using ih h
        · exact (ih h).trans ((List.Sublist.refl before).append (List.sublist_cons_self p rest))

theorem flatten_commaGroups (before parts : List Part) :
    (commaGroups before parts).flatten =
      before ++ parts.filter (fun p => p.raw.isStructural) := by
  induction parts generalizing before with
  | nil => simp [commaGroups]
  | cons p rest ih =>
      rw [commaGroups]
      split
      · next hcomma =>
        have hplain : p.raw.isStructural = false := by
          simp_all [Concrete.Node.isComma, Concrete.Node.isStructural]
        simp [ih, hplain]
      · split
        · next hstructural => simp [ih, hstructural]
        · next hstructural => simp [ih, hstructural]

theorem mem_withInferredType {name : String} {nodes : List Node} {c : Node}
    (h : c ∈ withInferredType name nodes) :
    c ∈ nodes ∨ ∃ n ∈ nodes, c = n.placeholder name := by
  induction nodes with
  | nil => exact .inl h
  | cons n rest ih =>
      rw [withInferredType] at h
      split at h
      · split at h
        · rcases List.mem_cons.mp h with rfl | h
          · exact .inr ⟨n, List.mem_cons_self, rfl⟩
          · exact .inl (List.mem_cons_of_mem n h)
        · exact .inl h
      · rcases List.mem_cons.mp h with rfl | h
        · exact .inl List.mem_cons_self
        rcases ih h with h | ⟨m, hm, rfl⟩
        · exact .inl (List.mem_cons_of_mem n h)
        · exact .inr ⟨m, List.mem_cons_of_mem n hm, rfl⟩

theorem map_span_withInferredType (name : String) (nodes : List Node) :
    (withInferredType name nodes).map Node.span = nodes.map Node.span := by
  induction nodes with
  | nil => rfl
  | cons n rest ih =>
      rw [withInferredType]
      split
      · split <;> rfl
      · rw [List.map_cons, ih, List.map_cons]

/-! Order of siblings. -/

theorem follow_hulls_append {lo hi : Int} {group : List Part} {tail tail' : List Span}
    (h : Span.Follow lo hi (group.map (fun p => p.raw.span) ++ tail))
    (htail : ∀ mid, Span.Follow mid hi tail → Span.Follow mid hi tail') :
    Span.Follow lo hi (hulls group ++ tail') := by
  obtain ⟨mid, hgroup, hrest⟩ := Span.follow_append.mp h
  refine Span.follow_append.mpr ⟨mid, ?_, htail mid hrest⟩
  cases group with
  | nil => exact hgroup
  | cons first rest =>
      rw [hulls, spanOf_eq_hull]
      exact hgroup.hull.1

theorem follow_gatherModifiers (source : Bytes) {lo hi : Int} {run parts : List Part}
    (hparts : ∀ p ∈ parts, p.node.span = p.raw.span)
    (h : Span.Follow lo hi ((run ++ parts).map (fun p => p.raw.span))) :
    Span.Follow lo hi ((gatherModifiers source run parts).map Node.span) := by
  -- the siblings still to be laid out are those of `run` and then the parts
  induction parts generalizing run lo with
  | nil =>
      rw [gatherModifiers, map_span_modifierLists, ← List.append_nil (hulls run)]
      have hrun : Span.Follow lo hi (run.map (fun p => p.raw.span) ++ []) := by simpa using h
      exact follow_hulls_append hrun fun _ hmid => hmid
  | cons p rest ih =>
      obtain ⟨hp, hrest⟩ := List.forall_mem_cons.mp hparts
      rw [gatherModifiers]
      split
      · exact ih hrest (by simpa using h)
      · rw [List.map_append, map_span_modifierLists, List.map_cons]
        rw [List.map_append, List.map_cons] at h
        apply follow_hulls_append h
        rintro mid ⟨hstart, hrange, hmore⟩
        rw [← hp] at hstart hrange hmore
        exact ⟨hstart, hrange, ih hrest hmore⟩

theorem follow_flatMap_parameterOf {lo hi : Int} {groups : List (List Part)}
    (hparts : ∀ group ∈ groups, ∀ p ∈ group, p.node.span = p.raw.span)
    (h : Span.Follow lo hi (groups.flatten.map (fun p => p.raw.span))) :
    Span.Follow lo hi ((groups.flatMap parameterOf).map Node.span) := by
  induction groups generalizing lo with
  | nil => exact h
  | cons group rest ih =>
      obtain ⟨hgroup, hrest⟩ := List.forall_mem_cons.mp hparts
      rw [List.flatMap_cons, List.map_append, map_span_parameterOf hgroup]
      rw [List.flatten_cons, List.map_append] at h
      exact follow_hulls_append h fun mid hmid => ih hrest hmid

theorem follow_childrenOf (source : Bytes) (kind : Kind) (raw : Concrete.Node) {lo hi : Int}
    {parts : List Part} (hparts : ∀ p ∈ parts, p.node.span = p.raw.span)
    (h : Span.Follow lo hi (parts.map (fun p => p.raw.span))) :
    Span.Follow lo hi ((childrenOf source kind raw parts).map Node.span) := by
  have hstructural : Span.Follow lo hi
      ((parts.filter (fun p => p.raw.isStructural)).map (fun p => p.raw.span)) :=
    h.sublist (List.filter_sublist.map _)
  have hgathered : Span.Follow lo hi ((gatherModifiers source []
      (parts.filter (fun p => p.raw.isStructural))).map Node.span) :=
    follow_gatherModifiers source (fun p hp => hparts p (List.mem_filter.mp hp).1) hstructural
  cases kind with
  | parameterList =>
      apply follow_flatMap_parameterOf
      · intro group hgroup p hp
        exact hparts p (by simpa using (sublist_of_mem_commaGroups hgroup).subset hp)
      · rw [flatten_commaGroups]
        exact hstructural
  | variableDeclaration =>
      rw [childrenOf, map_span_withInferredType]
      exact hgathered
  | _ => exact hgathered

/-! What holds of the span and the children's spans of every node. -/

/-- `R` holds of the span of each node of a tree and the spans of its
children. -/
def Everywhere (R : Span → List Span → Prop) (n : Node) : Prop :=
  ∀ m ∈ n.preorder, R m.span (m.children.map Node.span)

theorem everywhere_iff {R : Span → List Span → Prop} {n : Node} :
    n.Everywhere R ↔ R n.span (n.children.map Node.span) ∧ ∀ c ∈ n.children, c.Everywhere R := by
  constructor
  · intro h
    exact ⟨h n (branching.mem_preorder.mpr (.inl rfl)),
      fun c hc m hm => h m (branching.mem_preorder.mpr (.inr ⟨c, hc, hm⟩))⟩
  · rintro ⟨hself, hchildren⟩ m hm
    rcases branching.mem_preorder.mp hm with rfl | ⟨c, hc, hm⟩
    · exact hself
    · exact hchildren c hc m hm

theorem Everywhere.withoutField {R : Span → List Span → Prop} {p : Part}
    (h : p.node.Everywhere R) : p.withoutField.Everywhere R := by
  rw [everywhere_iff] at h ⊢
  exact h

section Children

variable {R : Span → List Span → Prop} {parts : List Part}
  (hparts : ∀ p ∈ parts, p.node.span = p.raw.span ∧ p.node.Everywhere R)
  (hgroup : ∀ first rest, (first :: rest).Sublist parts →
    R (spanOf first rest) ((first :: rest).map (fun p => p.raw.span)))

include hparts hgroup

theorem everywhere_modifierLists (source : Bytes) {run : List Part} (hrun : run.Sublist parts) :
    ∀ c ∈ modifierLists source run, c.Everywhere R := by
  cases run with
  | nil => simp [modifierLists]
  | cons first rest =>
      intro c hc
      obtain rfl := List.mem_singleton.mp hc
      have hmembers (p : Part) (hp : p ∈ first :: rest) := hparts p (hrun.subset hp)
      rw [everywhere_iff]
      constructor
      · have hspans : ((first :: rest).map Part.withoutField).map Node.span =
            (first :: rest).map (fun p => p.raw.span) := by
          rw [List.map_map]
          exact List.map_congr_left fun p hp => (hmembers p hp).1
        exact hspans ▸ hgroup first rest hrun
      · intro c hc
        obtain ⟨p, hp, rfl⟩ := List.mem_map.mp hc
        exact (hmembers p hp).2.withoutField

theorem everywhere_parameterOf {group : List Part} (hmember : group.Sublist parts) :
    ∀ c ∈ parameterOf group, c.Everywhere R := by
  cases group with
  | nil => simp [parameterOf]
  | cons first rest =>
      intro c hc
      have hmembers (p : Part) (hp : p ∈ first :: rest) := hparts p (hmember.subset hp)
      rw [parameterOf] at hc
      split at hc
      · obtain rfl := List.mem_singleton.mp hc
        exact (hmembers first List.mem_cons_self).2.withoutField
      · obtain rfl := List.mem_singleton.mp hc
        rw [everywhere_iff]
        constructor
        · have hspans : ((first :: rest).map Part.node).map Node.span =
              (first :: rest).map (fun p => p.raw.span) := by
            rw [List.map_map]
            exact List.map_congr_left fun p hp => (hmembers p hp).1
          exact hspans ▸ hgroup first rest hmember
        · intro c hc
          obtain ⟨p, hp, rfl⟩ := List.mem_map.mp hc
          exact (hmembers p hp).2

theorem everywhere_gatherModifiers (source : Bytes) :
    ∀ c ∈ gatherModifiers source [] (parts.filter (fun p => p.raw.isStructural)),
      c.Everywhere R := by
  intro c hc
  rcases mem_gatherModifiers hc with ⟨p, hp, rfl⟩ | ⟨run, hrun, hc⟩
  · exact (hparts p (List.mem_filter.mp hp).1).2
  · exact everywhere_modifierLists hparts hgroup source (hrun.trans List.filter_sublist) c hc

theorem everywhere_childrenOf (source : Bytes) (kind : Kind) (raw : Concrete.Node)
    (hleaf : ∀ span inner, R span inner → R span []) :
    ∀ c ∈ childrenOf source kind raw parts, c.Everywhere R := by
  have hgathered := everywhere_gatherModifiers hparts hgroup source
  intro c hc
  cases kind with
  | parameterList =>
      obtain ⟨group, hmem, hc⟩ := List.mem_flatMap.mp hc
      exact everywhere_parameterOf hparts hgroup (sublist_of_mem_commaGroups hmem) c hc
  | variableDeclaration =>
      rcases mem_withInferredType hc with hc | ⟨n, hn, rfl⟩
      · exact hgathered c hc
      · rw [everywhere_iff]
        exact ⟨hleaf _ _ (everywhere_iff.mp (hgathered n hn)).1, by simp [placeholder]⟩
  | _ => exact hgathered c hc

end Children

/-- What holds of every concrete node's span and of every group of its
children holds everywhere in the syntax tree. -/
theorem everywhere_ofConcrete {R : Span → List Span → Prop} (source : Bytes)
    (hleaf : ∀ span inner, R span inner → R span []) {raw : Concrete.Node}
    (hself : ∀ c ∈ raw.preorder, R c.span ((ofConcrete source c).children.map Node.span))
    (hgroup : ∀ c ∈ raw.preorder, ∀ first rest, (first :: rest).Sublist c.children →
      R (Span.hull first.span (rest.map Concrete.Node.span))
        ((first :: rest).map Concrete.Node.span)) :
    (ofConcrete source raw).Everywhere R := by
  induction raw using Concrete.Node.branching.induction with
  | step raw ih =>
      have hchild (c : Concrete.Node) (hc : c ∈ raw.children) :
          (ofConcrete source c).Everywhere R :=
        ih c hc (fun m hm => hself m (Concrete.Node.branching.mem_of_child hc hm))
          (fun m hm => hgroup m (Concrete.Node.branching.mem_of_child hc hm))
      have hraw := Concrete.Node.branching.self_mem raw
      refine everywhere_iff.mpr ⟨span_ofConcrete source raw ▸ hself raw hraw, ?_⟩
      rw [ofConcrete_eq, partsOf_eq_map]
      refine everywhere_childrenOf ?_ ?_ source _ raw hleaf
      · intro p hp
        obtain ⟨c, hc, rfl⟩ := List.mem_map.mp hp
        exact ⟨span_ofConcrete source c, hchild c hc⟩
      · intro first rest hsub
        have hmembers := hgroup raw hraw first.raw (rest.map Part.raw)
        rw [spanOf_eq_hull]
        have hraws : (first.raw :: rest.map Part.raw).Sublist raw.children := by
          simpa [Function.comp_def] using hsub.map Part.raw
        simpa [Function.comp_def] using hmembers hraws

/-- Every node starts where some concrete node starts and ends where some
concrete node ends. -/
theorem bounds_ofConcrete {P Q : Int → Prop} (source : Bytes) {raw : Concrete.Node}
    (h : ∀ c ∈ raw.preorder, P c.span.start ∧ Q c.span.stop) :
    ∀ n ∈ (ofConcrete source raw).preorder, P n.span.start ∧ Q n.span.stop := by
  have hspans : (ofConcrete source raw).Everywhere (fun span _ => P span.start ∧ Q span.stop) := by
    refine everywhere_ofConcrete source (fun _ _ hspan => hspan) ?_ ?_
    · exact h
    · intro c hc first rest hsub
      have hmember (m : Concrete.Node) (hm : m ∈ first :: rest) :
          P m.span.start ∧ Q m.span.stop :=
        h m (Concrete.Node.branching.child_mem hc (hsub.subset hm))
      refine ⟨(hmember first List.mem_cons_self).1, ?_⟩
      have hlast : (rest.map Concrete.Node.span).getLastD first.span ∈
          (first :: rest).map Concrete.Node.span :=
        List.getLastD_mem_cons
      obtain ⟨m, hm, hspan⟩ := List.mem_map.mp hlast
      rw [Span.hull, ← hspan]
      exact (hmember m hm).2
  exact hspans

end CSharpAudit.Node

namespace CSharpAudit.Concrete.Node

/-- Spans that nest: at every depth a node holds its children, in order and
without overlap. -/
def WellNested (root : Node) : Prop :=
  ∀ n ∈ root.preorder, n.span.Holds (n.children.map Node.span)

theorem WellNested.follow {root n : Node} (h : root.WellNested) (hn : n ∈ root.preorder) :
    Span.Follow n.span.start n.span.stop (n.children.map Node.span) := by
  refine (h n hn).follow fun s hs => ?_
  obtain ⟨c, hc, rfl⟩ := List.mem_map.mp hs
  exact (h c (branching.child_mem hn hc)).start_le_stop

end CSharpAudit.Concrete.Node

namespace CSharpAudit.Node

theorem everywhere_holds_ofConcrete (source : Bytes) {raw : Concrete.Node}
    (h : raw.WellNested) : (ofConcrete source raw).Everywhere Span.Holds := by
  refine everywhere_ofConcrete source ?_ ?_ ?_
  · intro span inner hspan
    exact ⟨hspan.start_le_stop, by simp, .nil⟩
  · intro c hc
    apply Span.Follow.holds
    rw [ofConcrete_eq, partsOf_eq_map]
    apply follow_childrenOf
    · intro p hp
      obtain ⟨m, hm, rfl⟩ := List.mem_map.mp hp
      exact span_ofConcrete source m
    · simpa [Function.comp_def] using h.follow hc
  · intro c hc first rest hsub
    have hgroup := (h.follow hc).sublist (hsub.map Concrete.Node.span)
    exact hgroup.hull.2.holds

/-- Conversion keeps spans well formed. No node of the syntax tree is reversed,
every node holds its children, and no child starts before the child in front of
it has ended, whether the nodes stand for concrete ones or for groups. -/
theorem spans_nest_ofConcrete (source : Bytes) (raw : Concrete.Node) (h : raw.WellNested) :
    ∀ n ∈ (ofConcrete source raw).preorder,
      n.span.start ≤ n.span.stop ∧ (∀ c ∈ n.children, n.span.contains c.span = true) ∧
        n.children.IsChain (fun a b => a.span.stop ≤ b.span.start) := by
  intro n hn
  obtain ⟨hrange, hcontains, hapart⟩ := everywhere_holds_ofConcrete source h n hn
  refine ⟨hrange, fun c hc => hcontains c.span (List.mem_map_of_mem hc), ?_⟩
  exact (List.isChain_map Node.span).mp hapart

def methodSource : Bytes :=
  Utf8.encode "public/**/static void F(params int[]a,int b)\x7bvar x=1;\x7d"

def groupedMembers : Concrete.Node :=
  .branch "method_declaration" ⟨0, 54⟩
    [.branch "modifier" ⟨0, 6⟩ [], .branch "comment" ⟨6, 10⟩ [], .branch "modifier" ⟨10, 16⟩ [],
     .branch "predefined_type" ⟨17, 21⟩ [], .branch "identifier" ⟨22, 23⟩ [],
     .branch "parameter_list" ⟨23, 44⟩
       [.token "(" ⟨23, 24⟩, .token "params" ⟨24, 30⟩, .branch "array_type" ⟨31, 36⟩ [],
        .branch "identifier" ⟨36, 37⟩ [], .token "," ⟨37, 38⟩,
        .branch "parameter" ⟨38, 43⟩
          [.branch "predefined_type" ⟨38, 41⟩ [], .branch "identifier" ⟨42, 43⟩ []],
        .token ")" ⟨43, 44⟩],
     .branch "block" ⟨44, 54⟩
       [.branch "variable_declaration" ⟨45, 52⟩
         [.withField "type" (.branch "implicit_type" ⟨45, 48⟩ []),
          .branch "variable_declarator" ⟨49, 52⟩
            [.branch "identifier" ⟨49, 50⟩ [], .token "=" ⟨50, 51⟩,
             .branch "integer_literal" ⟨51, 52⟩ []]],
        .token ";" ⟨52, 53⟩]]

/-- The modifiers of the method reach across the comment, its first parameter is
wrapped, and its `var` is replaced. -/
theorem spans_nest_groupedMembers :
    groupedMembers.WellNested ∧
      ((ofConcrete methodSource groupedMembers).preorder.filter fun n =>
        n.kind == .modifierList || n.kind == .parameter || n.inferred).map Node.span =
          [⟨0, 16⟩, ⟨31, 37⟩, ⟨38, 43⟩, ⟨45, 48⟩] ∧
      ∀ n ∈ (ofConcrete methodSource groupedMembers).preorder,
        n.span.start ≤ n.span.stop ∧ (∀ c ∈ n.children, n.span.contains c.span = true) ∧
          n.children.IsChain (fun a b => a.span.stop ≤ b.span.start) := by
  have hnested : groupedMembers.WellNested := by
    unfold Concrete.Node.WellNested
    decide
  exact ⟨hnested, by decide, spans_nest_ofConcrete methodSource groupedMembers hnested⟩

theorem pairwise_start_preorderAll {lo hi : Int} {nodes : List Node}
    (hfollow : Span.Follow lo hi (nodes.map Node.span))
    (hnodes : ∀ n ∈ nodes, n.preorder.Pairwise (fun a b => a.span.start ≤ b.span.start) ∧
      ∀ m ∈ n.preorder, n.span.start ≤ m.span.start ∧ m.span.start ≤ n.span.stop) :
    (preorderAll nodes).Pairwise (fun a b => a.span.start ≤ b.span.start) ∧
      ∀ m ∈ preorderAll nodes, lo ≤ m.span.start ∧ m.span.start ≤ hi := by
  induction nodes generalizing lo with
  | nil => simp [preorderAll]
  | cons n rest ih =>
      obtain ⟨hlo, hrange, hrest⟩ := hfollow
      obtain ⟨⟨hsorted, hwithin⟩, hothers⟩ := List.forall_mem_cons.mp hnodes
      obtain ⟨hsorted', hwithin'⟩ := ih hrest hothers
      have hhi := hrest.le
      rw [preorderAll]
      constructor
      · refine List.pairwise_append.mpr ⟨hsorted, hsorted', fun a ha b hb => ?_⟩
        exact Int.le_trans (hwithin a ha).2 (hwithin' b hb).1
      · intro m hm
        rcases List.mem_append.mp hm with hm | hm
        · have hm := hwithin m hm
          omega
        · have hm := hwithin' m hm
          omega

/-- In a tree of nested spans the pre-order never goes back to an earlier
start. -/
theorem pairwise_start_preorder {n : Node} (h : n.Everywhere Span.Holds) :
    n.preorder.Pairwise (fun a b => a.span.start ≤ b.span.start) ∧
      ∀ m ∈ n.preorder, n.span.start ≤ m.span.start ∧ m.span.start ≤ n.span.stop := by
  induction n using Node.branching.induction with
  | step n ih =>
      obtain ⟨hself, hchildren⟩ := everywhere_iff.mp h
      have hfollow : Span.Follow n.span.start n.span.stop (n.children.map Node.span) := by
        refine hself.follow fun s hs => ?_
        obtain ⟨c, hc, rfl⟩ := List.mem_map.mp hs
        exact (everywhere_iff.mp (hchildren c hc)).1.start_le_stop
      obtain ⟨hsorted, hwithin⟩ :=
        pairwise_start_preorderAll hfollow fun c hc => ih c hc (hchildren c hc)
      rw [preorder_eq]
      constructor
      · exact List.pairwise_cons.mpr ⟨fun m hm => (hwithin m hm).1, hsorted⟩
      · exact List.forall_mem_cons.mpr ⟨⟨Int.le_refl _, hself.start_le_stop⟩, hwithin⟩

end CSharpAudit.Node
