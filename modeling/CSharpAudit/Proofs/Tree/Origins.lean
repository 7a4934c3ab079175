import CSharpAudit.Proofs.Concrete.Visits
import CSharpAudit.Tree.Node
import Mathlib.Data.List.Perm.Basic

/-!
Where the nodes of a syntax tree come from. Every node was read off the text or
was made for a group of neighbours, and the origins of a concrete node, in
pre-order, tell which. What they name as read are the nodes that are reached, and
what they name as made are the groups that get a node of their own.
-/

namespace CSharpAudit

/-- A node shows a concrete node if it has its type and its span. -/
def Concrete.Node.ShownBy (c : Concrete.Node) (n : CSharpAudit.Node) : Prop :=
  n.type = c.type ∧ n.span = c.span

/-- What a node of a syntax tree stands for: a concrete node that was read, or a
group of neighbours that it was made for. -/
inductive Origin
  | read (raw : Concrete.Node)
  | modifierRun (run : List Concrete.Node)
  | parameterGroup (group : List Concrete.Node)

namespace Origin

def read? : Origin → Option Concrete.Node
  | .read raw => some raw
  | _ => none

def isMade (o : Origin) : Bool :=
  o.read?.isNone

def Of : Origin → Node → Prop
  | .read raw, n => n.kind ≠ .modifierList ∧ raw.ShownBy n
  | .modifierRun run, n =>
    n.kind = .modifierList ∧ List.Forall₂ Concrete.Node.ShownBy run n.children
  | .parameterGroup group, n =>
    n.kind = .parameter ∧ List.Forall₂ Concrete.Node.ShownBy group n.children

def readNodes (origins : List Origin) (nodes : List Node) : List Node :=
  ((origins.zip nodes).filter fun x => !x.1.isMade).map Prod.snd

theorem Of.shownBy {o : Origin} {n : Node} {raw : Concrete.Node} (h : o.Of n)
    (hread : o.read? = some raw) : raw.ShownBy n := by
  cases o with
  | read c =>
      obtain rfl : c = raw := Option.some.inj hread
      exact h.2
  | modifierRun run => cases hread
  | parameterGroup group => cases hread

theorem map_readNodes {origins : List Origin} {nodes : List Node}
    (h : List.Forall₂ Of origins nodes) :
    (readNodes origins nodes).map (fun n => (n.type, n.span)) =
      (origins.filterMap read?).map (fun c => (c.type, c.span)) := by
  induction h with
  | nil => rfl
  | @cons o n origins nodes ho h ih =>
      cases hread : o.read? with
      | none =>
          have hskip : readNodes (o :: origins) (n :: nodes) = readNodes origins nodes := by
            simp [readNodes, isMade, hread]
          rw [hskip, ih, List.filterMap_cons_none hread]
      | some raw =>
          have hkeep : readNodes (o :: origins) (n :: nodes) = n :: readNodes origins nodes := by
            simp [readNodes, isMade, hread]
          obtain ⟨htype, hspan⟩ := ho.shownBy hread
          rw [hkeep, List.map_cons, ih, List.filterMap_cons_some hread, List.map_cons, htype, hspan]

end Origin

namespace Concrete.Node

def made? (n : Node) (group : List Node) : Option Origin :=
  if n.type = "parameter_list" then
    if needsParameter group then some (.parameterGroup group) else none
  else if group.any isModifier then some (.modifierRun group) else none

def groupOrigins (n : Node) (group : List (Node × List Origin)) : List Origin :=
  (n.made? (group.map Prod.fst)).toList ++ group.flatMap Prod.snd

/-- The origins of the syntax tree of a concrete node, in pre-order. -/
def origins (source : Bytes) : Node → List Origin :=
  fold fun n children =>
    .read n :: (n.groups Prod.fst (reached source (fun c => [.read c]) n children)).flatMap
      n.groupOrigins

/-- The longest runs of modifiers below a node, if its children are reached and it
does not group them by commas. -/
def Visit.modifierRuns (v : Visit) : List (List Node) :=
  if v.entered && v.node.type != "parameter_list" then v.node.modifierRuns else []

def Visit.wrappedGroups (v : Visit) : List (List Node) :=
  if v.node.type = "parameter_list" then v.node.wrappedGroups else []

def Visit.made (v : Visit) : List Origin :=
  v.modifierRuns.map .modifierRun ++ v.wrappedGroups.map .parameterGroup

theorem origins_eq (source : Bytes) (n : Node) :
    n.origins source =
      .read n :: (n.groups Prod.fst (reached source (fun c => [.read c]) n
        (n.children.map fun c => (c, c.origins source)))).flatMap n.groupOrigins := by
  rw [origins, fold_eq]

theorem read?_of_made? {n : Node} {group : List Node} {o : Origin} (h : n.made? group = some o) :
    o.read? = none := by
  rw [made?] at h
  split at h <;> split at h <;> cases h <;> rfl

theorem groups_children {α : Type} (source : Bytes) (cut : Node → α) (n : Node)
    (value : Node → α) :
    n.groups id n.children =
      (n.groups Prod.fst (reached source cut n (n.children.map fun c => (c, value c)))).map
        (List.map Prod.fst) := by
  rw [← groups_map, map_fst_reached, List.map_map]
  congr
  exact (List.map_id n.children).symm

theorem filterMap_made?_groups (n : Node) :
    (n.groups id n.children).filterMap n.made? = Visit.made ⟨n, true⟩ := by
  by_cases hlist : n.type = "parameter_list"
  · have hmade : n.made? = fun g => (Option.guard needsParameter g).map .parameterGroup := by
      funext g
      rw [made?, if_pos hlist, Option.guard]
      split <;> rfl
    rw [hmade, ← List.map_filterMap, List.filterMap_eq_filter]
    simp [groups, Visit.made, Visit.modifierRuns, Visit.wrappedGroups, wrappedGroups, hlist]
  · have hmade : n.made? = fun g => (Option.guard (List.any · isModifier) g).map .modifierRun := by
      funext g
      rw [made?, if_neg hlist, Option.guard]
      split <;> rfl
    rw [hmade, ← List.map_filterMap, List.filterMap_eq_filter]
    simp [groups, Visit.made, Visit.modifierRuns, Visit.wrappedGroups, modifierRuns, hlist]

/-- Origins account for nodes that are reached: what was read are these nodes, and
what was made are the nodes for the groups below them. Of these the order is not
the same, as a tree goes through all of one group before it comes to the next. -/
structure Accounts (os : List Origin) (vs : List Visit) : Prop where
  read : os.filterMap Origin.read? = vs.map Visit.node
  made : (os.filter Origin.isMade).Perm (vs.flatMap Visit.made)

theorem accounts_flatten {os : List (List Origin)} {vs : List (List Visit)}
    (h : List.Forall₂ Accounts os vs) : Accounts os.flatten vs.flatten := by
  induction h with
  | nil => exact ⟨rfl, .refl _⟩
  | cons hfirst _ ih =>
      constructor
      · rw [List.flatten_cons, List.flatten_cons, List.filterMap_append, List.map_append,
          hfirst.read, ih.read]
      · rw [List.flatten_cons, List.flatten_cons, List.filter_append, List.flatMap_append]
        exact hfirst.made.append ih.made

theorem accounts_word {source : Bytes} {c : Node} (h : c.asksForInference source = true) :
    Accounts [.read c] [⟨c, false⟩] := by
  have hlist : c.type ≠ "parameter_list" := by
    intro hlist
    simp [asksForInference, hlist] at h
  have hmade : Visit.made ⟨c, false⟩ = [] := by
    simp [Visit.made, Visit.modifierRuns, Visit.wrappedGroups, hlist]
  exact ⟨rfl, by simp [Origin.isMade, Origin.read?, hmade]⟩

theorem filterMap_read?_flatMap (n : Node) (groups : List (List (Node × List Origin))) :
    (groups.flatMap n.groupOrigins).filterMap Origin.read? =
      (groups.flatten.flatMap Prod.snd).filterMap Origin.read? := by
  induction groups with
  | nil => rfl
  | cons g rest ih =>
      have hmade : (n.made? (g.map Prod.fst)).toList.filterMap Origin.read? = [] := by
        cases hmade : n.made? (g.map Prod.fst) with
        | none => rfl
        | some o => simp [read?_of_made? hmade]
      rw [List.flatMap_cons, List.filterMap_append, ih, groupOrigins, List.filterMap_append, hmade,
        List.nil_append, List.flatten_cons, List.flatMap_append, List.filterMap_append]

/-- What is made for the groups themselves may be told before what is made below
them. -/
theorem filter_isMade_flatMap (n : Node) (groups : List (List (Node × List Origin))) :
    ((groups.flatMap n.groupOrigins).filter Origin.isMade).Perm
      (groups.filterMap (fun g => n.made? (g.map Prod.fst)) ++
        (groups.flatten.flatMap Prod.snd).filter Origin.isMade) := by
  have hmade : (groups.filterMap fun g => n.made? (g.map Prod.fst)).filter Origin.isMade =
      groups.filterMap fun g => n.made? (g.map Prod.fst) := by
    refine List.filter_eq_self.mpr fun o ho => ?_
    obtain ⟨g, -, hg⟩ := List.mem_filterMap.mp ho
    rw [Origin.isMade, read?_of_made? hg, Option.isNone_none]
  have hbelow : groups.flatMap (fun g => g.flatMap Prod.snd) = groups.flatten.flatMap Prod.snd := by
    rw [← List.flatMap_id, List.flatMap_assoc]
    rfl
  have hsplit := List.flatMap_append_perm groups
    (fun g => (n.made? (g.map Prod.fst)).toList) (fun g => g.flatMap Prod.snd)
  rw [← List.filterMap_eq_flatMap_toList, hbelow] at hsplit
  have hfilter := hsplit.symm.filter Origin.isMade
  rw [List.filter_append, hmade] at hfilter
  exact hfilter

/-- What is read and made for a node is what is reached from it. -/
theorem accounts_origins (source : Bytes) (n : Node) :
    Accounts (n.origins source) (n.visits source) := by
  induction n using Node.branching.induction with
  | step n ih =>
      have hbelow : Accounts (valuesBelow source (fun c => [.read c]) n (origins source)).flatten
          (valuesBelow source (fun c => [⟨c, false⟩]) n (visits source)).flatten :=
        accounts_flatten (forall₂_valuesBelow (fun c hc => accounts_word hc) ih)
      have hvalues : (n.groups Prod.fst (reached source (fun c => [.read c]) n
            (n.children.map fun c => (c, c.origins source)))).flatten.flatMap Prod.snd =
          (valuesBelow source (fun c => [.read c]) n (origins source)).flatten := by
        rw [flatten_groups, valuesBelow, List.flatMap_def]
      constructor
      · rw [origins_eq, List.filterMap_cons_some (b := n) (by rfl), filterMap_read?_flatMap, hvalues,
          hbelow.read, visits_eq, List.map_cons]
      · rw [origins_eq, List.filter_cons_of_neg (by simp [Origin.isMade, Origin.read?]), visits_eq,
          List.flatMap_cons, ← filterMap_made?_groups,
          groups_children source (fun c => [.read c]) n (origins source), List.filterMap_map]
        refine (filter_isMade_flatMap n _).trans ?_
        rw [hvalues]
        exact hbelow.made.append_left _

theorem length_eq_read_add_made (os : List Origin) :
    os.length = (os.filterMap Origin.read?).length + (os.filter Origin.isMade).length := by
  induction os with
  | nil => rfl
  | cons o rest ih =>
      cases hread : o.read? with
      | none =>
          have hmade : o.isMade = true := by rw [Origin.isMade, hread, Option.isNone_none]
          rw [List.filterMap_cons_none hread, List.filter_cons_of_pos hmade, List.length_cons,
            List.length_cons]
          omega
      | some raw =>
          have hmade : ¬o.isMade = true := by simp [Origin.isMade, hread]
          rw [List.filterMap_cons_some hread, List.filter_cons_of_neg hmade, List.length_cons,
            List.length_cons]
          omega

theorem length_flatMap_made (vs : List Visit) :
    (vs.flatMap Visit.made).length =
      (vs.flatMap Visit.modifierRuns).length + (vs.flatMap Visit.wrappedGroups).length := by
  induction vs with
  | nil => rfl
  | cons v rest ih =>
      rw [List.flatMap_cons, List.flatMap_cons, List.flatMap_cons, List.length_append,
        List.length_append, List.length_append, ih, Visit.made, List.length_append,
        List.length_map, List.length_map]
      omega

theorem Accounts.length_eq {os : List Origin} {vs : List Visit} (h : Accounts os vs) :
    os.length = vs.length + (vs.flatMap Visit.modifierRuns).length +
      (vs.flatMap Visit.wrappedGroups).length := by
  rw [length_eq_read_add_made, h.read, List.length_map, h.made.length_eq, length_flatMap_made]
  omega

end Concrete.Node

end CSharpAudit
