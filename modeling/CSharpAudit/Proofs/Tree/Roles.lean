import CSharpAudit.Proofs.Tree.Built

/-!
The children of a node, asked for by role and by kind. Modifiers go into lists, and
a list has no role and a kind of its own. So the first child in a role is what the
first structural child became that has the role and is no modifier, and the
children of any other kind are what the structural children of its type became.
-/

namespace CSharpAudit

namespace Concrete.Node

/-- A child that keeps its role: a modifier loses it to the list that it goes into. -/
def plays (field : String) (n : Node) : Bool :=
  n.isStructural && n.type != "modifier" && n.field == some field

def IsPlain (n : Node) : Prop :=
  n.type ∉ ["parameter_list", "variable_declaration"]

instance (n : Node) : Decidable n.IsPlain :=
  inferInstanceAs (Decidable (n.type ∉ _))

end Concrete.Node

namespace Node

theorem find?_gatherModifiers (source : Bytes) (field : String) (run parts : List Part) :
    (gatherModifiers source run parts).find? (fun c => c.field == some field) =
      (parts.find? fun p => !p.raw.isModifier && p.node.field == some field).map Part.node := by
  have hlists (run : List Part) (nodes : List Node) :
      (modifierLists source run ++ nodes).find? (fun c => c.field == some field) =
        nodes.find? fun c => c.field == some field := by
    cases run with
    | nil => rfl
    | cons first rest => rfl
  induction parts generalizing run with
  | nil => simpa [gatherModifiers] using hlists run []
  | cons p rest ih =>
      rw [gatherModifiers]
      split
      · next hp => simp [ih, hp]
      · next hp =>
        rw [hlists, List.find?_cons, List.find?_cons, ih]
        cases hfield : p.node.field == some field <;> simp [hp]

theorem find?_gatherModifiers_partsOf (source : Bytes) (field : String)
    (children : List Concrete.Node) :
    (gatherModifiers source []
        ((partsOf source children).filter fun p => p.raw.isStructural)).find?
          (fun c => c.field == some field) =
      (children.find? (Concrete.Node.plays field)).map (ofConcrete source) := by
  have hplays (c : Concrete.Node) : decide (c.isStructural = true ∧
      (!c.isModifier && (ofConcrete source c).field == some field) =
        true) = c.plays field := by
    rw [field_ofConcrete, Concrete.Node.plays, Concrete.Node.isModifier, Bool.decide_and,
      Bool.decide_eq_true, Bool.decide_eq_true, Bool.and_assoc]
    rfl
  rw [find?_gatherModifiers, List.find?_filter, partsOf_eq_map, List.find?_map, Option.map_map]
  simp only [Function.comp_def, hplays]

/-- Gathering modifiers changes nothing for a kind that is neither theirs nor that of
their lists. -/
theorem filter_kind_gatherModifiers (source : Bytes) {kind : Kind} (hlist : kind ≠ .modifierList)
    (run : List Part) {parts : List Part}
    (hmodifier : ∀ p ∈ parts, p.raw.isModifier = true → p.node.kind ≠ kind) :
    (gatherModifiers source run parts).filter (fun c => c.kind == kind) =
      (parts.map Part.node).filter fun c => c.kind == kind := by
  have hlists (run : List Part) :
      (modifierLists source run).filter (fun c => c.kind == kind) = [] := by
    cases run with
    | nil => rfl
    | cons first rest => simp [modifierLists, hlist.symm]
  induction parts generalizing run with
  | nil => exact hlists run
  | cons p rest ih =>
      obtain ⟨hp, hrest⟩ := List.forall_mem_cons.mp hmodifier
      rw [gatherModifiers, List.map_cons, List.filter_cons]
      split
      · next hmod => simp [ih (run ++ [p]) hrest, hp hmod]
      · rw [List.filter_append, hlists, List.nil_append, List.filter_cons, ih [] hrest]

theorem gatherModifiers_eq_nil {source : Bytes} {run parts : List Part}
    (h : gatherModifiers source run parts = []) : run = [] ∧ parts = [] := by
  induction parts generalizing run with
  | nil =>
      cases run with
      | nil => exact ⟨rfl, rfl⟩
      | cons first rest => simp [gatherModifiers, modifierLists] at h
  | cons p rest ih =>
      rw [gatherModifiers] at h
      split at h
      · exact absurd (ih h).1 (by simp)
      · exact absurd h (by simp)

theorem gatherModifiers_eq_singleton {source : Bytes} {run parts : List Part} {n : Node}
    (h : gatherModifiers source run parts = [n]) (hn : n.kind ≠ .modifierList) :
    run = [] ∧ ∃ p, parts = [p] ∧ p.node = n := by
  induction parts generalizing run with
  | nil =>
      cases run with
      | nil => simp [gatherModifiers, modifierLists] at h
      | cons first rest =>
          obtain rfl : _ = n := List.singleton_inj.mp h
          exact absurd rfl hn
  | cons p rest ih =>
      rw [gatherModifiers] at h
      split at h
      · exact absurd (ih h).1 (by simp)
      · cases run with
        | nil =>
            obtain ⟨hnode, hrest⟩ := List.cons.inj h
            exact ⟨rfl, p, by rw [(gatherModifiers_eq_nil hrest).2], hnode⟩
        | cons first more => simp [modifierLists] at h

theorem map_raw_reachedParts (source : Bytes) (raw : Concrete.Node) :
    (reachedParts source raw).map Part.raw = raw.children := by
  rw [reachedParts, List.map_map]
  change List.map Prod.fst _ = _
  rw [Concrete.Node.map_fst_reached, List.map_map]
  exact List.map_id raw.children

theorem kind_eq_iff_of_mem_reachedParts {source : Bytes} {raw : Concrete.Node} {kind : Kind}
    (hkind : kind ∉ [.modifierList, .identifier, .other]) {p : Part}
    (hp : p ∈ reachedParts source raw) :
    (p.node.kind = kind ↔ p.raw.type = kind.name) ∧
      (p.node.kind = kind → p.node = ofConcrete source p.raw) := by
  simp only [List.mem_cons, List.not_mem_nil, not_or, or_false] at hkind
  obtain ⟨hlists, hword, hother⟩ := hkind
  obtain ⟨-, hread | ⟨-, -, hasks, hcut⟩⟩ := mem_reachedParts hp
  · rw [hread, kind_ofConcrete]
    exact ⟨Kind.ofType_eq_iff hlists hother, fun _ => rfl⟩
  · have hkind : p.node.kind ≠ kind := by
      rw [hcut]
      exact Ne.symm hword
    have hname : kind.name ≠ "implicit_type" ∧ kind.name ≠ "identifier" := by
      revert hword
      cases kind <;> decide
    have htype : p.raw.type ≠ kind.name := by
      rcases Concrete.Node.type_of_asksForInference hasks with h | h
      · exact h ▸ Ne.symm hname.1
      · exact h ▸ Ne.symm hname.2
    exact ⟨iff_of_false hkind htype, fun h => absurd h hkind⟩

theorem childrenOfKind_ofConcrete (source : Bytes) {raw : Concrete.Node} {kind : Kind}
    (hlist : raw.type ≠ "parameter_list") (hkind : kind ∉ [.modifierList, .identifier, .other]) :
    (ofConcrete source raw).childrenOfKind kind =
      (raw.children.filter fun c => c.isStructural && c.type == kind.name).map
        (ofConcrete source) := by
  have hplain : Kind.ofType raw.type ≠ .parameterList :=
    mt (Kind.ofType_eq_iff (by decide) (by decide)).mp hlist
  let parts := (reachedParts source raw).filter fun p => p.raw.isStructural
  have hpart (p : Part) (hp : p ∈ parts) :=
    kind_eq_iff_of_mem_reachedParts hkind (List.mem_filter.mp hp).1
  have hmodifier : ∀ p ∈ parts, p.raw.isModifier = true → p.node.kind ≠ kind := by
    intro p hp hmod hk
    have hname : kind.name = "modifier" := ((hpart p hp).1.mp hk).symm.trans (beq_iff_eq.mp hmod)
    revert hname
    cases kind <;> decide
  have hfilter : parts.filter (fun p => p.node.kind == kind) =
      parts.filter fun p => p.raw.type == kind.name :=
    List.filter_congr fun p hp => by simp [(hpart p hp).1]
  have hraw : parts.map Part.raw = raw.children.filter Concrete.Node.isStructural := by
    rw [← map_raw_reachedParts source raw, List.filter_map]
    rfl
  calc (ofConcrete source raw).childrenOfKind kind
      = (parts.filter fun p => p.node.kind == kind).map Part.node := by
        rw [childrenOfKind, children_ofConcrete_eq_gatherModifiers source hplain,
          filter_kind_gatherModifiers source (by rintro rfl; simp at hkind) [] hmodifier,
          List.filter_map]
        rfl
    _ = (parts.filter fun p => p.raw.type == kind.name).map (ofConcrete source ∘ Part.raw) := by
        rw [← hfilter]
        refine List.map_congr_left fun p hp => ?_
        obtain ⟨hp, hk⟩ := List.mem_filter.mp hp
        exact (hpart p hp).2 (beq_iff_eq.mp hk)
    _ = ((parts.map Part.raw).filter fun c => c.type == kind.name).map (ofConcrete source) := by
        rw [List.filter_map, List.map_map]
        rfl
    _ = (raw.children.filter fun c => c.isStructural && c.type == kind.name).map
          (ofConcrete source) := by
        rw [hraw, List.filter_filter]
        simp only [Bool.and_comm]

section Plain

variable {source : Bytes} {raw : Concrete.Node}

theorem children_of_isPlain (hplain : raw.IsPlain) :
    (ofConcrete source raw).children =
      gatherModifiers source []
        ((partsOf source raw.children).filter fun p => p.raw.isStructural) := by
  simp only [Concrete.Node.IsPlain, List.mem_cons, List.not_mem_nil, not_or, or_false] at hplain
  have hlist : Kind.ofType raw.type ≠ .parameterList :=
    mt (Kind.ofType_eq_iff (by decide) (by decide)).mp hplain.1
  rw [children_ofConcrete_eq_gatherModifiers source hlist, reachedParts, Concrete.Node.reached,
    if_neg hplain.2, ← partsOf_eq_map_ofPair]

theorem childByField?_of_isPlain (hplain : raw.IsPlain) (field : String) :
    (ofConcrete source raw).childByField? field =
      (raw.children.find? (Concrete.Node.plays field)).map (ofConcrete source) := by
  rw [childByField?, children_of_isPlain hplain, find?_gatherModifiers_partsOf]

/-- A node has one child that is no list if it has one structural child that is no
modifier. -/
theorem children_eq_singleton_iff (hplain : raw.IsPlain) {kind : Kind}
    (hlist : kind ≠ .modifierList) (hother : kind ≠ .other) {n : Node} :
    (ofConcrete source raw).children = [n] ∧ n.kind = kind ↔
      ∃ c, raw.children.filter Concrete.Node.isStructural = [c] ∧ c.type = kind.name ∧
        ofConcrete source c = n := by
  have hparts : (partsOf source raw.children).filter (fun p => p.raw.isStructural) =
      (raw.children.filter Concrete.Node.isStructural).map
        fun c => ⟨c, ofConcrete source c⟩ := by
    rw [partsOf_eq_map, List.filter_map]
    rfl
  rw [children_of_isPlain hplain, hparts]
  constructor
  · rintro ⟨hchildren, hkind⟩
    obtain ⟨-, p, hp, hnode⟩ := gatherModifiers_eq_singleton hchildren (hkind ▸ hlist)
    obtain ⟨c, hc, rfl⟩ := List.map_eq_singleton_iff.mp hp
    obtain rfl : ofConcrete source c = n := hnode
    rw [kind_ofConcrete] at hkind
    exact ⟨c, hc, (Kind.ofType_eq_iff hlist hother).mp hkind, rfl⟩
  · rintro ⟨c, hc, htype, rfl⟩
    have hname : kind.name ≠ "modifier" := by cases kind <;> decide
    have hmodifier : c.type ≠ "modifier" := htype ▸ hname
    refine ⟨?_, ?_⟩
    · simp [hc, gatherModifiers, Concrete.Node.isModifier, hmodifier, modifierLists]
    · rw [kind_ofConcrete]
      exact (Kind.ofType_eq_iff hlist hother).mpr htype

end Plain

end Node

end CSharpAudit
