import CSharpAudit.Tree.InferredType
import Mathlib.Data.List.Forall2
import Mathlib.Data.List.SplitBy

/-!
What of a concrete tree reaches a syntax tree: the root, and below a node that is
reached its structural children. Only the inference word of a declaration is
reached without what stands below it. The children of a node come in groups, and
some groups get a node of their own: the longest runs of modifiers, and what
stands between the commas of a parameter list.
-/

namespace CSharpAudit

section Cutting

open List

variable {α β : Type} {R : α → β → Prop}

theorem forall₂_splitByLoop {r : α → α → Bool} {s : β → β → Bool}
    (hrs : ∀ a b a' b', R a b → R a' b' → r a a' = s b b') {xs : List α} {ys : List β}
    (h : Forall₂ R xs ys) {a : α} {b : β} (hab : R a b) {run : List α} {run' : List β}
    (hrun : Forall₂ R run run') {done : List (List α)} {done' : List (List β)}
    (hdone : Forall₂ (Forall₂ R) done done') :
    Forall₂ (Forall₂ R) (splitBy.loop r xs a run done) (splitBy.loop s ys b run' done') := by
  induction h generalizing a b run run' done done' with
  | nil => exact rel_reverse (.cons (rel_reverse (.cons hab hrun)) hdone)
  | cons hxy _ ih =>
      rw [splitBy.loop, splitBy.loop, hrs _ _ _ _ hab hxy]
      split
      · exact ih hxy (.cons hab hrun) hdone
      · exact ih hxy .nil (.cons (rel_reverse (.cons hab hrun)) hdone)

theorem forall₂_splitBy {r : α → α → Bool} {s : β → β → Bool}
    (hrs : ∀ a b a' b', R a b → R a' b' → r a a' = s b b') {xs : List α} {ys : List β}
    (h : Forall₂ R xs ys) : Forall₂ (Forall₂ R) (xs.splitBy r) (ys.splitBy s) := by
  cases h with
  | nil => exact .nil
  | cons hab h => exact forall₂_splitByLoop hrs h hab .nil .nil

theorem forall₂_splitOnP {p : α → Bool} {q : β → Bool} (hpq : ∀ a b, R a b → p a = q b)
    {xs : List α} {ys : List β} (h : Forall₂ R xs ys) :
    Forall₂ (Forall₂ R) (xs.splitOnP p) (ys.splitOnP q) := by
  induction h with
  | nil => exact .cons .nil .nil
  | @cons a b xs ys hab h ih =>
      obtain ⟨g, gs, hx⟩ := exists_cons_of_ne_nil (splitOnP_ne_nil p xs)
      obtain ⟨g', gs', hy⟩ := exists_cons_of_ne_nil (splitOnP_ne_nil q ys)
      rw [hx, hy] at ih
      obtain ⟨hg, hgs⟩ := forall₂_cons.mp ih
      rw [splitOnP_cons_eq_if_modifyHead, splitOnP_cons_eq_if_modifyHead, hpq a b hab, hx, hy]
      split
      · exact .cons .nil ih
      · exact .cons (.cons hab hg) hgs

/-- Groups between marks lose nothing that is kept of the whole list, as long as
no mark is kept. -/
theorem flatten_map_filter_splitOnP {p q : α → Bool} (h : ∀ a, p a = true → q a = false)
    (xs : List α) : ((xs.splitOnP p).map (List.filter q)).flatten = xs.filter q := by
  induction xs with
  | nil => rfl
  | cons a xs ih =>
      obtain ⟨g, gs, hx⟩ := exists_cons_of_ne_nil (splitOnP_ne_nil p xs)
      rw [splitOnP_cons_eq_if_modifyHead]
      split
      · next ha => rw [map_cons, flatten_cons, ih, filter_nil, nil_append,
          filter_cons_of_neg (by simp [h a ha])]
      · rw [hx] at ih ⊢
        rw [modifyHead_cons, map_cons, flatten_cons, filter_cons, filter_cons, ← ih]
        split <;> simp

end Cutting

namespace Concrete.Node

variable {α β : Type}

mutual

/-- A value for a node from the values of its children, each child with its
own. -/
def fold (f : Node → List (Node × α) → α) : Node → α
  | ⟨type, span, field, named, missing, damaged, children⟩ =>
    f ⟨type, span, field, named, missing, damaged, children⟩ (foldEach f children)

def foldEach (f : Node → List (Node × α) → α) : List Node → List (Node × α)
  | [] => []
  | n :: rest => (n, n.fold f) :: foldEach f rest

end

theorem foldEach_eq_map (f : Node → List (Node × α) → α) (nodes : List Node) :
    foldEach f nodes = nodes.map (fun n => (n, n.fold f)) :=
  eq_map_of_cons rfl (fun _ _ => rfl) nodes

theorem fold_eq (f : Node → List (Node × α) → α) (n : Node) :
    n.fold f = f n (n.children.map (fun c => (c, c.fold f))) := by
  cases n
  rw [fold, foldEach_eq_map]

/-! The nodes that are reached. -/

/-- A child that says of which type its declaration is. -/
def namesType (n : Node) : Bool :=
  n.isStructural && n.type != "modifier" && n.field == some "type"

def asksForInference (source : Bytes) (n : Node) : Bool :=
  n.type == "implicit_type" || (n.type == "identifier" && n.text source == "var")

/-- The children of a declaration with their values. The first that names a type
gets another value if it asks for inference. -/
def cutAtInference (source : Bytes) (cut : Node → α) : List (Node × α) → List (Node × α)
  | [] => []
  | (c, a) :: rest =>
    if c.namesType then (c, if c.asksForInference source then cut c else a) :: rest
    else (c, a) :: cutAtInference source cut rest

/-- The children of a node with what is reached through each of them: `cut` tells
it for an inference word. -/
def reached (source : Bytes) (cut : Node → α) (n : Node) (children : List (Node × α)) :
    List (Node × α) :=
  if n.type = "variable_declaration" then cutAtInference source cut children else children

structure Visit where
  node : Node
  entered : Bool
deriving Repr

/-- The nodes that are reached from a root, in pre-order. -/
def visits (source : Bytes) : Node → List Visit :=
  fold fun n children =>
    ⟨n, true⟩ :: ((reached source (fun c => [⟨c, false⟩]) n children).filter
      (fun x => x.1.isStructural)).flatMap Prod.snd

section

variable {source : Bytes} {cut : Node → α} {cut' : Node → β} {R : Node → α → β → Prop}

theorem forall₂_cutAtInference
    (hcut : ∀ c, c.asksForInference source = true → R c (cut c) (cut' c))
    {xs : List (Node × α)} {ys : List (Node × β)}
    (h : List.Forall₂ (fun x y => x.1 = y.1 ∧ R x.1 x.2 y.2) xs ys) :
    List.Forall₂ (fun x y => x.1 = y.1 ∧ R x.1 x.2 y.2) (cutAtInference source cut xs)
      (cutAtInference source cut' ys) := by
  induction h with
  | nil => exact .nil
  | @cons x y xs ys hxy h ih =>
      obtain ⟨c, a⟩ := x
      obtain ⟨d, b⟩ := y
      obtain ⟨rfl, hab⟩ : c = d ∧ R c a b := hxy
      rw [cutAtInference, cutAtInference]
      split
      · split
        · next hasks => exact .cons ⟨rfl, hcut c hasks⟩ h
        · exact .cons ⟨rfl, hab⟩ h
      · exact .cons ⟨rfl, hab⟩ ih

theorem forall₂_reached (hcut : ∀ c, c.asksForInference source = true → R c (cut c) (cut' c))
    {n : Node} {value : Node → α} {value' : Node → β}
    (h : ∀ c ∈ n.children, R c (value c) (value' c)) :
    List.Forall₂ (fun x y => x.1 = y.1 ∧ R x.1 x.2 y.2)
      (reached source cut n (n.children.map fun c => (c, value c)))
      (reached source cut' n (n.children.map fun c => (c, value' c))) := by
  have hchildren : List.Forall₂ (fun x y => x.1 = y.1 ∧ R x.1 x.2 y.2)
      (n.children.map fun c => (c, value c)) (n.children.map fun c => (c, value' c)) := by
    rw [List.forall₂_map_left_iff, List.forall₂_map_right_iff, List.forall₂_same]
    exact fun c hc => ⟨rfl, h c hc⟩
  rw [reached, reached]
  split
  · exact forall₂_cutAtInference hcut hchildren
  · exact hchildren

end

theorem map_fst_cutAtInference (source : Bytes) (cut : Node → α) (children : List (Node × α)) :
    (cutAtInference source cut children).map Prod.fst = children.map Prod.fst := by
  induction children with
  | nil => rfl
  | cons x rest ih =>
      rw [cutAtInference]
      split
      · rfl
      · rw [List.map_cons, ih, List.map_cons]

theorem map_fst_reached (source : Bytes) (cut : Node → α) (n : Node)
    (children : List (Node × α)) :
    (reached source cut n children).map Prod.fst = children.map Prod.fst := by
  rw [reached]
  split
  · exact map_fst_cutAtInference source cut children
  · rfl

def valuesBelow (source : Bytes) (cut : Node → α) (n : Node) (value : Node → α) : List α :=
  ((reached source cut n (n.children.map (fun c => (c, value c)))).filter
    (fun x => x.1.isStructural)).map Prod.snd

theorem forall₂_valuesBelow {source : Bytes} {cut : Node → α} {cut' : Node → β}
    {R : α → β → Prop} (hcut : ∀ c, c.asksForInference source = true → R (cut c) (cut' c))
    {n : Node} {value : Node → α} {value' : Node → β}
    (h : ∀ c ∈ n.children, R (value c) (value' c)) :
    List.Forall₂ R (valuesBelow source cut n value) (valuesBelow source cut' n value') := by
  have hreached := forall₂_reached (R := fun _ => R) hcut h
  rw [valuesBelow, valuesBelow, List.forall₂_map_left_iff, List.forall₂_map_right_iff]
  refine (List.rel_filter ?_ hreached).imp fun _ _ hxy => hxy.2
  intro x y hxy
  simp only [hxy.1]

theorem visits_eq (source : Bytes) (n : Node) :
    n.visits source =
      ⟨n, true⟩ :: (valuesBelow source (fun c => [⟨c, false⟩]) n (visits source)).flatten := by
  rw [visits, fold_eq, valuesBelow, List.flatMap_def]

/-! The groups of children. -/

/-- Neighbours in one run: two modifiers. Everything else stands alone. -/
def sameRun (n m : Node) : Bool :=
  n.isModifier && m.isModifier

def modifierRuns (n : Node) : List (List Node) :=
  ((n.children.filter isStructural).splitBy sameRun).filter (List.any · isModifier)

/-- Whether a group between commas needs a parameter around it: there is
something in it, and it is not just a parameter. -/
def needsParameter (group : List Node) : Bool :=
  !group.isEmpty && group.map Node.type != ["parameter"]

def wrappedGroups (n : Node) : List (List Node) :=
  ((n.children.splitOnP isComma).map (List.filter isStructural)).filter needsParameter

/-- The groups that the structural children of a node form, the children given
with some data. -/
def groups (n : Node) (raw : α → Node) (children : List α) : List (List α) :=
  if n.type = "parameter_list" then
    (children.splitOnP (fun x => (raw x).isComma)).map (List.filter fun x => (raw x).isStructural)
  else
    (children.filter fun x => (raw x).isStructural).splitBy (fun x y => (raw x).sameRun (raw y))

theorem isStructural_eq_false_of_isComma {n : Node} (h : n.isComma = true) :
    n.isStructural = false := by
  rw [isComma, Bool.and_eq_true, Bool.not_eq_true'] at h
  rw [isStructural, h.1, Bool.false_and]

theorem flatten_groups (n : Node) (raw : α → Node) (children : List α) :
    (n.groups raw children).flatten = children.filter (fun x => (raw x).isStructural) := by
  rw [groups]
  split
  · exact flatten_map_filter_splitOnP (fun x => isStructural_eq_false_of_isComma) children
  · exact List.flatten_splitBy _ _

theorem forall₂_groups {R : α → β → Prop} {raw : α → Node} {raw' : β → Node}
    (hraw : ∀ x y, R x y → raw x = raw' y) (n : Node) {xs : List α} {ys : List β}
    (h : List.Forall₂ R xs ys) :
    List.Forall₂ (List.Forall₂ R) (n.groups raw xs) (n.groups raw' ys) := by
  have hfilter : ∀ {as : List α} {bs : List β}, List.Forall₂ R as bs →
      List.Forall₂ R (as.filter fun x => (raw x).isStructural)
        (bs.filter fun y => (raw' y).isStructural) :=
    fun h => List.rel_filter (fun x y hxy => by simp only [hraw x y hxy]) h
  rw [groups, groups]
  split
  · refine List.rel_map (fun _ _ hgroup => hfilter hgroup) (forall₂_splitOnP ?_ h)
    intro x y hxy
    rw [hraw x y hxy]
  · refine forall₂_splitBy ?_ (hfilter h)
    intro x y x' y' hxy hxy'
    rw [hraw x y hxy, hraw x' y' hxy']

theorem groups_map (n : Node) (f : α → Node) (xs : List α) :
    n.groups id (xs.map f) = (n.groups f xs).map (List.map f) := by
  have hpairs : List.Forall₂ (fun x c => f x = c) xs (xs.map f) := by
    rw [List.forall₂_map_right_iff]
    exact List.forall₂_same.mpr fun _ _ => rfl
  have hgroups : List.Forall₂ (List.Forall₂ fun x c => f x = c) (n.groups f xs)
      (n.groups id (xs.map f)) := forall₂_groups (fun _ _ h => h) n hpairs
  have hmap : ∀ {as : List α} {cs : List Node}, List.Forall₂ (fun x c => f x = c) as cs →
      as.map f = cs := by
    intro as cs h
    rwa [← List.forall₂_eq_eq_eq, List.forall₂_map_left_iff]
  symm
  rw [← List.forall₂_eq_eq_eq, List.forall₂_map_left_iff]
  exact hgroups.imp fun _ _ h => hmap h

end Concrete.Node

end CSharpAudit
