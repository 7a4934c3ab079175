import CSharpAudit.Proofs.Engine.Analysis
import CSharpAudit.Proofs.Tree.Built

/-!
Nodes of a kind. Lists of modifiers, parameters and placeholders may be made
without a concrete node of their own, and modifiers and parameters may lose their
role. The nodes of every other kind are the nodes that were read of its type, each
as it was read, in the order in which they are reached. So what a rule objects to
below the root is told by the concrete nodes that are reached.
-/

namespace CSharpAudit

/-- Kinds whose nodes were all read, and are kept as they were read. -/
def Kind.IsRead (kind : Kind) : Prop :=
  kind ∉ [.modifierList, .parameter, .identifier, .other]

instance (kind : Kind) : Decidable kind.IsRead :=
  inferInstanceAs (Decidable (kind ∉ _))

theorem Kind.IsRead.ofType_eq_iff {kind : Kind} (hkind : kind.IsRead) {type : String} :
    Kind.ofType type = kind ↔ type = kind.name := by
  simp only [IsRead, List.mem_cons, List.not_mem_nil, not_or, or_false] at hkind
  exact Kind.ofType_eq_iff hkind.1 hkind.2.2.2

namespace Node

def ofKind (kind : Kind) (n : Node) : List Node :=
  n.preorder.filter fun m => m.kind == kind

theorem strictlyBelow_filter_kind (kind : Kind) (n : Node) :
    n.strictlyBelow.filter (fun m => m.kind == kind) = n.children.flatMap (ofKind kind) := by
  rw [strictlyBelow, preorderAll_eq_flatMap, List.filter_flatMap]
  rfl

theorem ofKind_eq (kind : Kind) (n : Node) :
    n.ofKind kind = (if n.kind = kind then [n] else []) ++ n.children.flatMap (ofKind kind) := by
  rw [← strictlyBelow_filter_kind, ofKind, preorder_eq, List.filter_cons]
  by_cases hkind : n.kind = kind
  · simp [hkind, strictlyBelow]
  · simp [hkind, strictlyBelow]

theorem ofKind_of_ne {kind : Kind} {n : Node} (h : n.kind ≠ kind) :
    n.ofKind kind = n.children.flatMap (ofKind kind) := by
  rw [ofKind_eq, if_neg h, List.nil_append]

theorem ofKind_withoutField {kind : Kind} {p : Part} (hp : p.node.kind ≠ kind) :
    p.withoutField.ofKind kind = p.node.ofKind kind := by
  have hbare : p.withoutField.kind ≠ kind := hp
  rw [ofKind_of_ne hbare, ofKind_of_ne hp]
  rfl

theorem type_of_not_needsParameter {group : List Part}
    (h : Concrete.Node.needsParameter (group.map Part.raw) = false) :
    ∀ p ∈ group, p.raw.type = "parameter" := by
  match group with
  | [] => simp
  | [p] => simpa [Concrete.Node.needsParameter] using h
  | p :: q :: rest => simp [Concrete.Node.needsParameter] at h

section Read

variable {kind : Kind} {source : Bytes} {raw : Concrete.Node} {group : List Part}

theorem flatMap_ofKind_withoutField (hread : ∀ p ∈ group, p.node = ofConcrete source p.raw)
    (htype : ∀ p ∈ group, Kind.ofType p.raw.type ≠ kind) :
    (group.map Part.withoutField).flatMap (ofKind kind) =
      group.flatMap fun p => p.node.ofKind kind := by
  rw [List.flatMap_map]
  refine List.flatMap_congr fun p hp => ofKind_withoutField ?_
  rw [hread p hp, kind_ofConcrete]
  exact htype p hp

theorem flatMap_ofKind_formed (hkind : kind.IsRead)
    (hgroup : group ∈ raw.groups Part.raw (reachedParts source raw)) :
    (formed source raw group).flatMap (ofKind kind) =
      group.flatMap fun p => p.node.ofKind kind := by
  simp only [Kind.IsRead, List.mem_cons, List.not_mem_nil, not_or, or_false] at hkind
  obtain ⟨hlists, hparameters, -, hothers⟩ := hkind
  rw [formed]
  split
  · next hlist =>
    cases hneeds : Concrete.Node.needsParameter (group.map Part.raw) with
    | false =>
        rw [parameterOf_of_not_needsParameter hneeds]
        refine flatMap_ofKind_withoutField (node_eq_of_parameter_list hlist hgroup) fun p hp => ?_
        rw [type_of_not_needsParameter hneeds p hp]
        exact Ne.symm hparameters
    | true =>
        obtain ⟨around, haround, hwrapped, hchildren⟩ := parameterOf_of_needsParameter hneeds
        rw [haround, List.flatMap_singleton, ofKind_of_ne (hwrapped ▸ Ne.symm hparameters),
          hchildren, List.flatMap_map]
  · next hlist =>
    rw [gathered]
    split
    · next hany =>
      have hrun := modifier_of_any_isModifier hlist hgroup hany
      obtain ⟨list, hmade, hlistKind, hchildren⟩ := modifierLists_of_isModifier source hany
      rw [hmade, List.flatMap_singleton, ofKind_of_ne (hlistKind ▸ Ne.symm hlists), hchildren]
      refine flatMap_ofKind_withoutField (fun p hp => (hrun p hp).2) fun p hp => ?_
      rw [(hrun p hp).1]
      exact Ne.symm hothers
    · rw [List.flatMap_map]

theorem flatMap_ofKind_children (hkind : kind.IsRead) (source : Bytes) (raw : Concrete.Node) :
    (ofConcrete source raw).children.flatMap (ofKind kind) =
      (raw.valuesBelow source (fun c => (ofConcrete source c).placeholder (raw.declaredType source))
        (ofConcrete source)).flatMap (ofKind kind) := by
  have hparts : raw.valuesBelow source
      (fun c => (ofConcrete source c).placeholder (raw.declaredType source)) (ofConcrete source) =
      ((reachedParts source raw).filter fun p => p.raw.isStructural).map Part.node := by
    rw [Concrete.Node.valuesBelow, reachedParts, List.filter_map, List.map_map]
    rfl
  rw [hparts, children_ofConcrete, childrenOf_eq, List.flatMap_assoc, List.flatMap_map,
    ← Concrete.Node.flatten_groups raw Part.raw, ← List.flatMap_id, List.flatMap_assoc]
  exact List.flatMap_congr fun group hgroup => flatMap_ofKind_formed hkind hgroup

theorem ofKind_placeholder (hkind : kind.IsRead) (n : Node) (name : String) :
    (n.placeholder name).ofKind kind = [] := by
  simp only [Kind.IsRead, List.mem_cons, List.not_mem_nil, not_or, or_false] at hkind
  exact ofKind_of_ne (Ne.symm hkind.2.2.1)

theorem type_ne_of_asksForInference (hkind : kind.IsRead)
    (hasks : raw.asksForInference source = true) : raw.type ≠ kind.name := by
  intro htype
  have hnames : kind.name ≠ "implicit_type" ∧ kind.name ≠ "identifier" := by
    revert hkind
    cases kind <;> decide
  simp [Concrete.Node.asksForInference, htype, hnames] at hasks

end Read

def visitedOf (type : String) (vs : List Concrete.Node.Visit) : List Concrete.Node :=
  (vs.map Concrete.Node.Visit.node).filter fun c => c.type == type

theorem visitedOf_flatten (type : String) (vs : List (List Concrete.Node.Visit)) :
    visitedOf type vs.flatten = vs.flatMap (visitedOf type) := by
  rw [visitedOf, List.map_flatten, List.filter_flatten, List.map_map, List.flatMap_def]
  rfl

theorem flatMap_eq_of_forall₂ {α β γ : Type} {f : α → List γ} {g : β → List γ} {as : List α}
    {bs : List β} (h : List.Forall₂ (fun a b => f a = g b) as bs) :
    as.flatMap f = bs.flatMap g := by
  induction h with
  | nil => rfl
  | cons hab _ ih => rw [List.flatMap_cons, List.flatMap_cons, hab, ih]

section Visited

variable {kind : Kind} {source : Bytes} {raw : Concrete.Node}

/-- One step: what holds of the children holds of all that is reached below the
node. -/
theorem flatMap_ofKind_children_eq (hkind : kind.IsRead)
    (hbelow : ∀ c ∈ raw.children, (ofConcrete source c).ofKind kind =
      (visitedOf kind.name (c.visits source)).map (ofConcrete source)) :
    (ofConcrete source raw).children.flatMap (ofKind kind) =
      (visitedOf kind.name (raw.visits source).tail).map (ofConcrete source) := by
  have hcut : ∀ c : Concrete.Node, c.asksForInference source = true →
      ((ofConcrete source c).placeholder (raw.declaredType source)).ofKind kind =
        (visitedOf kind.name [⟨c, false⟩]).map (ofConcrete source) := by
    intro c hasks
    rw [ofKind_placeholder hkind]
    simp [visitedOf, type_ne_of_asksForInference hkind hasks]
  rw [flatMap_ofKind_children hkind, Concrete.Node.visits_eq, List.tail_cons, visitedOf_flatten,
    List.map_flatMap]
  refine flatMap_eq_of_forall₂ ?_
  exact Concrete.Node.forall₂_valuesBelow (R := fun n vs => ofKind kind n =
    (visitedOf kind.name vs).map (ofConcrete source)) hcut hbelow

/-- The nodes of a kind are the nodes of its type that are reached, each converted
in its own right. -/
theorem ofKind_ofConcrete (hkind : kind.IsRead) (source : Bytes) (raw : Concrete.Node) :
    (ofConcrete source raw).ofKind kind =
      (visitedOf kind.name (raw.visits source)).map (ofConcrete source) := by
  induction raw using Concrete.Node.branching.induction with
  | step raw ih =>
      have hvisits : raw.visits source = ⟨raw, true⟩ :: (raw.visits source).tail := by
        rw [Concrete.Node.visits_eq, List.tail_cons]
      rw [ofKind_eq, flatMap_ofKind_children_eq hkind ih, kind_ofConcrete, hvisits]
      by_cases htype : raw.type = kind.name
      · simp [visitedOf, htype, hkind.ofType_eq_iff]
      · simp [visitedOf, htype, hkind.ofType_eq_iff]

end Visited

end Node

/-- What a rule objects to, told by the nodes that are reached below the root: those
of its type whose conversions it matches. -/
theorem Rule.matchedNodes_ofConcrete {r : Rule} (hkind : r.kind.IsRead) (source : Bytes)
    (raw : Concrete.Node) :
    r.matchedNodes ⟨Node.ofConcrete source raw, source⟩ =
      ((Node.visitedOf r.kind.name (raw.visits source).tail).filter
        fun c => r.matches? (Node.ofConcrete source c)).map (Node.ofConcrete source) := by
  have hbelow : (Node.ofConcrete source raw).strictlyBelow.filter (fun n => n.kind == r.kind) =
      (Node.visitedOf r.kind.name (raw.visits source).tail).map (Node.ofConcrete source) := by
    rw [Node.strictlyBelow_filter_kind]
    exact Node.flatMap_ofKind_children_eq hkind fun c _ => Node.ofKind_ofConcrete hkind source c
  have hmatches : (fun n : Node => n.kind == r.kind && r.matches? n) =
      fun n => r.matches? n && n.kind == r.kind := funext fun n => Bool.and_comm _ _
  rw [r.matchedNodes_eq, hmatches, ← List.filter_filter, hbelow, List.filter_map]
  rfl

theorem Rule.ofConcrete_mem_matchedNodes_iff {r : Rule} (hkind : r.kind.IsRead) {source : Bytes}
    {raw n : Concrete.Node} (hn : n ∈ (raw.visits source).tail.map Concrete.Node.Visit.node)
    (htype : n.type = r.kind.name) :
    Node.ofConcrete source n ∈ r.matchedNodes ⟨Node.ofConcrete source raw, source⟩ ↔
      r.matches? (Node.ofConcrete source n) = true := by
  rw [Rule.matchedNodes_ofConcrete hkind, List.mem_map]
  constructor
  · rintro ⟨c, hc, hsame⟩
    exact hsame ▸ (List.mem_filter.mp hc).2
  · intro hmatches
    refine ⟨n, List.mem_filter.mpr ⟨?_, hmatches⟩, rfl⟩
    exact List.mem_filter.mpr ⟨hn, by simpa using htype⟩

/-- A rule whose verdict is told on the concrete tree objects to the nodes of its
type that are reached below the root and meet the verdict. -/
theorem Rule.matchedNodes_eq_of_matches_iff {r : Rule} (hkind : r.kind.IsRead) {source : Bytes}
    {verdict : Concrete.Node → Prop} [DecidablePred verdict]
    (hverdict : ∀ n : Concrete.Node, n.type = r.kind.name →
      (r.matches? (Node.ofConcrete source n) = true ↔ verdict n)) (raw : Concrete.Node) :
    r.matchedNodes ⟨Node.ofConcrete source raw, source⟩ =
      (((raw.visits source).tail.map Concrete.Node.Visit.node).filter fun n =>
        n.type = r.kind.name ∧ verdict n).map (Node.ofConcrete source) := by
  rw [Rule.matchedNodes_ofConcrete hkind, Node.visitedOf, List.filter_filter]
  refine congrArg _ (List.filter_congr fun n _ => ?_)
  rw [Bool.eq_iff_iff, Bool.and_eq_true, beq_iff_eq, decide_eq_true_iff, and_comm]
  exact and_congr_right fun htype => hverdict n htype

end CSharpAudit
