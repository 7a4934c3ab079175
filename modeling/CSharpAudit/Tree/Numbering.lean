import CSharpAudit.Tree.Basic

/-!
Numbers of nodes. Nodes are numbered in pre-order, the root being 0, so a number is a place in the
tree, also where two nodes look alike. Questions that lead downwards are answered by a walk from a
numbered node, questions that lead upwards from an index of parents that one walk fills.
-/

namespace CSharpAudit

structure Entry where
  node : Node
  depth : Nat

namespace Node

mutual

/-- The entries of a subtree whose root has the given depth, in the order of the numbers. -/
def entries (depth : Nat) : Node → List Entry
  | ⟨kind, span, type, field, name, modifiers, inferred, children⟩ =>
    ⟨⟨kind, span, type, field, name, modifiers, inferred, children⟩, depth⟩ ::
      entriesOfAll (depth + 1) children

def entriesOfAll (depth : Nat) : List Node → List Entry
  | [] => []
  | n :: rest => n.entries depth ++ entriesOfAll depth rest

end

end Node

structure Numbered where
  number : Nat
  node : Node

namespace Numbered

/-- Siblings in their places, the first of which has the given number. The nodes below a sibling
stand between it and the next one. -/
def siblings (number : Nat) : List Node → List Numbered
  | [] => []
  | n :: rest => ⟨number, n⟩ :: siblings (number + n.size) rest

theorem map_node_siblings (number : Nat) (nodes : List Node) :
    (siblings number nodes).map node = nodes := by
  induction nodes generalizing number with
  | nil => rfl
  | cons n rest ih => rw [siblings, List.map_cons, ih]

theorem le_number_of_mem_siblings {number : Nat} {nodes : List Node} {m : Numbered}
    (h : m ∈ siblings number nodes) : number ≤ m.number := by
  induction nodes generalizing number with
  | nil => simp [siblings] at h
  | cons n rest ih =>
    rcases List.mem_cons.mp h with rfl | h
    · exact Nat.le_refl _
    · exact Nat.le_trans (Nat.le_add_right _ _) (ih h)

def children (m : Numbered) : List Numbered :=
  siblings (m.number + 1) m.node.children

/-- The walk of `Node.walk` over nodes in their places: the node on top of the stack is visited
and its children take its place, the first of them on top. -/
def walk : List Numbered → List Numbered
  | [] => []
  | m :: rest => m :: walk (m.children ++ rest)
termination_by stack => (Node.preorderAll (stack.map node)).length
decreasing_by
  simp [Node.preorderAll, Node.preorder_eq, Node.preorderAll_append, children, map_node_siblings]

/-- Everything below the node that is of a kept kind and passes the test, in the order of the
walk. The test sees the place of a node as well. -/
def descendants (m : Numbered) (kinds : Option (List Kind)) (test : Numbered → Bool) :
    List Numbered :=
  (((walk [m]).drop 1).filter (fun c => c.node.keeps kinds)).filter test

end Numbered

namespace Tree

def entries (t : Tree) : List Entry :=
  t.root.entries 0

def entryAt? (t : Tree) (number : Nat) : Option Entry :=
  t.entries[number]?

def node? (t : Tree) (number : Nat) : Option Node :=
  (t.entryAt? number).map Entry.node

def numbered? (t : Tree) (number : Nat) : Option Numbered :=
  (t.node? number).map (Numbered.mk number)

/-- Each node but the root, by number, with its parent: one walk writes down the children of every
node it meets. -/
def parents (t : Tree) : List (Nat × Nat) :=
  (Numbered.walk [⟨0, t.root⟩]).flatMap fun m => m.children.map fun c => (c.number, m.number)

def parent? (t : Tree) (number : Nat) : Option Nat :=
  t.parents.lookup number

theorem mem_parents_of_parent? {t : Tree} {number parent : Nat}
    (h : t.parent? number = some parent) : (number, parent) ∈ t.parents := by
  obtain ⟨before, after, heq, -⟩ := List.lookup_eq_some_iff.mp h
  simp [heq]

theorem lt_of_mem_parents {t : Tree} {number parent : Nat} (h : (number, parent) ∈ t.parents) :
    parent < number := by
  obtain ⟨m, -, hmem⟩ := List.mem_flatMap.mp h
  obtain ⟨c, hc, heq⟩ := List.mem_map.mp hmem
  obtain ⟨rfl, rfl⟩ := Prod.mk.inj heq
  exact Numbered.le_number_of_mem_siblings hc

/-- The parent, its parent and so on up to the root. A parent has a smaller number than its
children, so the climb ends. -/
def ancestors (t : Tree) (number : Nat) : List Nat :=
  match _h : t.parent? number with
  | none => []
  | some parent => parent :: ancestors t parent
termination_by number
decreasing_by exact lt_of_mem_parents (mem_parents_of_parent? _h)

def childNumbers (t : Tree) (number : Nat) (test : Node → Bool) : List Nat :=
  match t.numbered? number with
  | none => []
  | some m => (m.children.filter (fun c => test c.node)).map Numbered.number

def descendantNumbers (t : Tree) (number : Nat) (kinds : Option (List Kind))
    (test : Node → Bool) : List Nat :=
  match t.numbered? number with
  | none => []
  | some m => (m.descendants kinds (fun c => test c.node)).map Numbered.number

def childByField? (t : Tree) (number : Nat) (field : String) : Option Nat :=
  (t.childNumbers number (fun n => n.field == some field)).head?

def childrenOfKind (t : Tree) (number : Nat) (kind : Kind) : List Nat :=
  t.childNumbers number (fun n => n.kind == kind)

end Tree

end CSharpAudit
