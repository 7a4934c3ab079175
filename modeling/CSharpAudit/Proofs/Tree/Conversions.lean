import CSharpAudit.Proofs.Tree.Kinds

/-!
What becomes of the nodes that are reached. What is reached from such a node is
part of what is reached from the root. In the order in which they are reached, the
nodes stand in the syntax tree as they were converted: a node whose children are
reached as its own conversion, perhaps without its role, and an inference word as
a placeholder.
-/

namespace CSharpAudit

namespace Concrete.Node

section Visits

variable {source : Bytes} {n : Node} {v : Visit}

theorem mem_visits : v ∈ n.visits source ↔ v = ⟨n, true⟩ ∨ v ∈ (n.visits source).tail := by
  rw [visits_eq, List.mem_cons, List.tail_cons]

theorem exists_child_of_mem_tail_visits (hv : v ∈ (n.visits source).tail) :
    ∃ c ∈ n.children,
      v ∈ c.visits source ∧ (c.visits source).Sublist (n.visits source).tail ∨
        v = ⟨c, false⟩ ∧ c.asksForInference source = true := by
  rw [visits_eq source n, List.tail_cons] at hv ⊢
  obtain ⟨vs, hvs, hv⟩ := List.mem_flatten.mp hv
  have hpart := List.sublist_flatten_of_mem hvs
  obtain ⟨⟨c, vs⟩, hx, rfl⟩ := List.mem_map.mp hvs
  obtain ⟨hc, hown | ⟨-, -, hasks, hcut⟩⟩ := mem_reached (List.mem_filter.mp hx).1
  · obtain rfl : vs = c.visits source := hown
    exact ⟨c, hc, .inl ⟨hv, hpart⟩⟩
  · obtain rfl : vs = [⟨c, false⟩] := hcut
    exact ⟨c, hc, .inr ⟨List.mem_singleton.mp hv, hasks⟩⟩

theorem visits_sublist_of_mem (hv : v ∈ (n.visits source).tail) (hentered : v.entered = true) :
    (v.node.visits source).Sublist (n.visits source).tail := by
  induction n using Node.branching.induction with
  | step n ih =>
      obtain ⟨c, hc, ⟨hv, hpart⟩ | ⟨rfl, -⟩⟩ := exists_child_of_mem_tail_visits hv
      · rcases mem_visits.mp hv with rfl | hv
        · exact hpart
        · exact (ih c hc hv).trans ((List.tail_sublist _).trans hpart)
      · cases hentered

theorem entered_of_mem_visits (hv : v ∈ n.visits source)
    (hasks : v.node.asksForInference source = false) : v.entered = true := by
  induction n using Node.branching.induction with
  | step n ih =>
      rcases mem_visits.mp hv with rfl | hv
      · rfl
      obtain ⟨c, hc, ⟨hv, -⟩ | ⟨rfl, hword⟩⟩ := exists_child_of_mem_tail_visits hv
      · exact ih c hc hv
      · rw [hword] at hasks
        cases hasks

theorem visits_sublist_of_child {c : Node} (hdecl : n.type ≠ "variable_declaration")
    (hc : c ∈ n.children) (hstructural : c.isStructural = true) :
    (c.visits source).Sublist (n.visits source).tail := by
  rw [visits_eq source n, List.tail_cons]
  apply List.sublist_flatten_of_mem
  rw [valuesBelow, reached, if_neg hdecl]
  exact List.mem_map.mpr ⟨(c, c.visits source),
    List.mem_filter.mpr ⟨List.mem_map_of_mem hc, hstructural⟩, rfl⟩

theorem mem_tail_visits_of_child {c : Node} (hdecl : n.type ≠ "variable_declaration")
    (hc : c ∈ n.children) (hstructural : c.isStructural = true) :
    ⟨c, true⟩ ∈ (n.visits source).tail :=
  (visits_sublist_of_child hdecl hc hstructural).subset (mem_visits.mpr (.inl rfl))

end Visits

/-- What a node that is reached becomes: its conversion, with its role or without it,
or a placeholder if its children are not reached. -/
def Visit.Becomes (source : Bytes) (v : Visit) (n : CSharpAudit.Node) : Prop :=
  if v.entered then
    n = .ofConcrete source v.node ∨
      n = CSharpAudit.Node.Part.withoutField ⟨v.node, .ofConcrete source v.node⟩
  else ∃ name, n = (CSharpAudit.Node.ofConcrete source v.node).placeholder name

end Concrete.Node

namespace Node

open Concrete.Node (Visit)
open List (SublistForall₂)

theorem sublistForall₂_append {α β : Type} {R : α → β → Prop} {as cs : List α} {bs ds : List β}
    (h : SublistForall₂ R as bs) (h' : SublistForall₂ R cs ds) :
    SublistForall₂ R (as ++ cs) (bs ++ ds) := by
  rw [List.sublistForall₂_iff] at h h' ⊢
  obtain ⟨kept, hkept, hsub⟩ := h
  obtain ⟨kept', hkept', hsub'⟩ := h'
  exact ⟨kept ++ kept', List.rel_append hkept hkept', hsub.append hsub'⟩

theorem sublistForall₂_flatMap {α β γ : Type} {R : α → β → Prop} {f : γ → List α}
    {g : γ → List β} {items : List γ} (h : ∀ x ∈ items, SublistForall₂ R (f x) (g x)) :
    SublistForall₂ R (items.flatMap f) (items.flatMap g) := by
  induction items with
  | nil => exact .nil
  | cons x rest ih =>
      obtain ⟨hx, hrest⟩ := List.forall_mem_cons.mp h
      exact sublistForall₂_append hx (ih hrest)

def Part.visits (source : Bytes) (p : Part) : List Visit :=
  if p.node.inferred then [⟨p.raw, false⟩] else p.raw.visits source

theorem tail_visits_eq_flatMap (source : Bytes) (raw : Concrete.Node) :
    (raw.visits source).tail =
      ((reachedParts source raw).filter fun p => p.raw.isStructural).flatMap
        (Part.visits source) := by
  have hparts : List.Forall₂ (fun x p => x.1 = p.raw ∧ x.2 = p.visits source)
      (raw.reached source (fun c => [⟨c, false⟩])
        (raw.children.map fun c => (c, c.visits source)))
      (reachedParts source raw) := by
    have hword (c : Concrete.Node) (_ : c.asksForInference source = true) :
        [⟨c, false⟩] = Part.visits source
          ⟨c, (ofConcrete source c).placeholder (raw.declaredType source)⟩ := rfl
    have hown (c : Concrete.Node) (_ : c ∈ raw.children) :
        c.visits source = Part.visits source ⟨c, ofConcrete source c⟩ := by
      simp [Part.visits]
    rw [reachedParts, List.forall₂_map_right_iff]
    refine (Concrete.Node.forall₂_reached
      (R := fun c vs n => vs = Part.visits source ⟨c, n⟩) hword hown).imp fun x y hxy => ?_
    obtain ⟨c, vs⟩ := x
    obtain ⟨d, n⟩ := y
    obtain ⟨rfl, hvisits⟩ : c = d ∧ vs = Part.visits source ⟨c, n⟩ := hxy
    exact ⟨rfl, hvisits⟩
  rw [Concrete.Node.visits_eq, List.tail_cons, Concrete.Node.valuesBelow, ← List.flatMap_def]
  refine flatMap_eq_of_forall₂ ((List.rel_filter ?_ hparts).imp fun _ _ h => h.2)
  intro x p h
  simp only [h.1]

section Becomes

variable {source : Bytes} {raw : Concrete.Node} {group : List Part}

theorem sublistForall₂_visits {n : Node} (hn : Visit.Becomes source ⟨raw, true⟩ n)
    (hbelow : SublistForall₂ (Visit.Becomes source) (raw.visits source).tail
      (ofConcrete source raw).strictlyBelow) :
    SublistForall₂ (Visit.Becomes source) (raw.visits source) n.preorder := by
  have hchildren : n.children = (ofConcrete source raw).children := by
    rcases hn with rfl | rfl <;> rfl
  have hvisits : raw.visits source = ⟨raw, true⟩ :: (raw.visits source).tail := by
    rw [Concrete.Node.visits_eq, List.tail_cons]
  rw [hvisits, preorder_eq, hchildren]
  exact .cons hn hbelow

theorem sublistForall₂_preorderAll {f : Part → Node}
    (h : ∀ p ∈ group, SublistForall₂ (Visit.Becomes source) (p.visits source) (f p).preorder) :
    SublistForall₂ (Visit.Becomes source) (group.flatMap (Part.visits source))
      (preorderAll (group.map f)) := by
  rw [preorderAll_eq_flatMap, List.flatMap_map]
  exact sublistForall₂_flatMap h

theorem sublistForall₂_around {vs : List Visit} {around : Node}
    (h : SublistForall₂ (Visit.Becomes source) vs (preorderAll around.children)) :
    SublistForall₂ (Visit.Becomes source) vs (preorderAll [around]) := by
  rw [preorderAll, preorderAll, List.append_nil, preorder_eq]
  exact .cons_right h

/-- One step: what holds of the children holds of every group of them. -/
theorem sublistForall₂_formed
    (hgroup : group ∈ raw.groups Part.raw (reachedParts source raw))
    (hbelow : ∀ c ∈ raw.children, SublistForall₂ (Visit.Becomes source) (c.visits source).tail
      (ofConcrete source c).strictlyBelow) :
    SublistForall₂ (Visit.Becomes source) (group.flatMap (Part.visits source))
      (preorderAll (formed source raw group)) := by
  have hread (p : Part) (hp : p ∈ group) (hnode : p.node = ofConcrete source p.raw) {n : Node}
      (hn : Visit.Becomes source ⟨p.raw, true⟩ n) :
      SublistForall₂ (Visit.Becomes source) (p.visits source) n.preorder := by
    have hvisits : p.visits source = p.raw.visits source := by simp [Part.visits, hnode]
    have hchild := (mem_reachedParts (mem_reachedParts_of_mem_groups hgroup hp)).1
    rw [hvisits]
    exact sublistForall₂_visits hn (hbelow p.raw hchild)
  have hbare (p : Part) (hp : p ∈ group) (hnode : p.node = ofConcrete source p.raw) :
      SublistForall₂ (Visit.Becomes source) (p.visits source) p.withoutField.preorder := by
    refine hread p hp hnode (.inr ?_)
    rw [← hnode]
  have hnodes : SublistForall₂ (Visit.Becomes source) (group.flatMap (Part.visits source))
      (preorderAll (group.map Part.node)) := by
    refine sublistForall₂_preorderAll fun p hp => ?_
    obtain ⟨-, hnode | ⟨-, -, -, hcut⟩⟩ :=
      mem_reachedParts (mem_reachedParts_of_mem_groups hgroup hp)
    · exact hread p hp hnode (.inl hnode)
    · rw [Part.visits, hcut, preorder_eq]
      exact .cons ⟨_, rfl⟩ .nil
  rw [formed]
  split
  · next hlist =>
    have hnode := node_eq_of_parameter_list hlist hgroup
    cases hneeds : Concrete.Node.needsParameter (group.map Part.raw) with
    | false =>
        rw [parameterOf_of_not_needsParameter hneeds]
        exact sublistForall₂_preorderAll fun p hp => hbare p hp (hnode p hp)
    | true =>
        obtain ⟨around, haround, -, hchildren⟩ := parameterOf_of_needsParameter hneeds
        rw [haround]
        exact sublistForall₂_around (hchildren ▸ hnodes)
  · next hlist =>
    rw [gathered]
    split
    · next hany =>
      have hrun := modifier_of_any_isModifier hlist hgroup hany
      obtain ⟨list, hmade, -, hchildren⟩ := modifierLists_of_isModifier source hany
      rw [hmade]
      refine sublistForall₂_around (hchildren ▸ ?_)
      exact sublistForall₂_preorderAll fun p hp => hbare p hp (hrun p hp).2
    · exact hnodes

theorem sublistForall₂_strictlyBelow (source : Bytes) (raw : Concrete.Node) :
    SublistForall₂ (Visit.Becomes source) (raw.visits source).tail
      (ofConcrete source raw).strictlyBelow := by
  induction raw using Concrete.Node.branching.induction with
  | step raw ih =>
      rw [tail_visits_eq_flatMap, strictlyBelow, children_ofConcrete, childrenOf_eq,
        preorderAll_eq_flatMap, List.flatMap_assoc, ← Concrete.Node.flatten_groups raw Part.raw,
        ← List.flatMap_id, List.flatMap_assoc]
      refine sublistForall₂_flatMap fun group hgroup => ?_
      rw [← preorderAll_eq_flatMap]
      exact sublistForall₂_formed hgroup ih

/-- The nodes that are reached stand in the syntax tree in their order, each as what
it becomes. -/
theorem sublistForall₂_becomes (source : Bytes) (raw : Concrete.Node) :
    SublistForall₂ (Visit.Becomes source) (raw.visits source) (ofConcrete source raw).preorder :=
  sublistForall₂_visits (.inl rfl) (sublistForall₂_strictlyBelow source raw)

end Becomes

end Node

end CSharpAudit
