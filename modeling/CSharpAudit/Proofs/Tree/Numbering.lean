import CSharpAudit.Proofs.Tree.Preorder
import CSharpAudit.Tree.Numbering

/-!
The walk with a stack against the numbers of the nodes. The recursive numbering gives
the nodes of a subtree consecutive numbers, its root the first of them. A walk from a
node in its place meets exactly these nodes, in the order of their numbers: its stack
holds the roots of the subtrees still to be visited, so what it meets from a stack on
are the subtrees of the stack, one after the other.
-/

namespace CSharpAudit

namespace Node

theorem entries_eq (depth : Nat) (n : Node) :
    n.entries depth = ⟨n, depth⟩ :: entriesOfAll (depth + 1) n.children := by
  cases n
  rfl

theorem entriesOfAll_eq_flatMap (depth : Nat) (nodes : List Node) :
    entriesOfAll depth nodes = nodes.flatMap (entries depth) :=
  eq_flatMap_of_cons rfl (fun _ _ => rfl) nodes

theorem map_node_entries (depth : Nat) (n : Node) :
    (n.entries depth).map Entry.node = n.preorder := by
  induction n using Node.branching.induction generalizing depth with
  | step n ih =>
      rw [entries_eq, preorder_eq, List.map_cons, entriesOfAll_eq_flatMap,
        preorderAll_eq_flatMap, List.map_flatMap, List.flatMap_def, List.flatMap_def,
        List.map_congr_left fun c hc => ih c hc (depth + 1)]

theorem length_entries (depth : Nat) (n : Node) : (n.entries depth).length = n.size := by
  rw [← List.length_map (f := Entry.node), map_node_entries, size]

theorem entriesOfAll_prefix_drop {depth : Nat} {e : Entry} {nodes : List Node}
    (hnodes : ∀ n ∈ nodes, ∀ i, (n.entries depth)[i]? = some e →
      e.node.entries e.depth <+: (n.entries depth).drop i)
    {i : Nat} (h : (entriesOfAll depth nodes)[i]? = some e) :
    e.node.entries e.depth <+: (entriesOfAll depth nodes).drop i := by
  induction nodes generalizing i with
  | nil => simp [entriesOfAll] at h
  | cons n rest ih =>
      rw [entriesOfAll] at h ⊢
      rcases Nat.lt_or_ge i (n.entries depth).length with hlt | hge
      · rw [List.getElem?_append_left hlt] at h
        rw [List.drop_append_of_le_length (Nat.le_of_lt hlt)]
        exact (hnodes n List.mem_cons_self i h).trans (List.prefix_append _ _)
      · obtain ⟨k, rfl⟩ := Nat.exists_eq_add_of_le hge
        rw [List.getElem?_append_right hge, Nat.add_sub_cancel_left] at h
        rw [List.drop_length_add_append]
        exact ih (fun m hm => hnodes m (List.mem_cons_of_mem n hm)) h

/-- The entries of a subtree follow one another from its root on. -/
theorem entries_prefix_drop {root : Node} {depth i : Nat} {e : Entry}
    (h : (root.entries depth)[i]? = some e) :
    e.node.entries e.depth <+: (root.entries depth).drop i := by
  induction root using Node.branching.induction generalizing depth i with
  | step root ih =>
      cases i with
      | zero =>
          rw [entries_eq] at h
          obtain rfl := Option.some.inj h
          exact List.prefix_rfl
      | succ i =>
          rw [entries_eq, List.getElem?_cons_succ] at h
          rw [entries_eq depth root, List.drop_succ_cons]
          exact entriesOfAll_prefix_drop (fun c hc j => ih c hc) h

theorem keeps_eq_all (kinds : Option (List Kind)) (n : Node) :
    n.keeps kinds = kinds.all (fun kept => n.kind ∈ kept) := by
  cases kinds with
  | none => rfl
  | some kept => simp [keeps, List.contains_eq_mem]

end Node

namespace Numbered

def consecutive (number : Nat) (nodes : List Node) : List Numbered :=
  (nodes.zipIdx number).map fun (n, i) => ⟨i, n⟩

theorem consecutive_cons (number : Nat) (n : Node) (rest : List Node) :
    consecutive number (n :: rest) = ⟨number, n⟩ :: consecutive (number + 1) rest := rfl

theorem consecutive_append (number : Nat) (a b : List Node) :
    consecutive number (a ++ b) = consecutive number a ++ consecutive (number + a.length) b := by
  rw [consecutive, List.zipIdx_append, List.map_append]
  rfl

theorem map_number_consecutive (number : Nat) (nodes : List Node) :
    (consecutive number nodes).map Numbered.number = List.range' number nodes.length := by
  rw [consecutive, List.map_map]
  exact List.zipIdx_map_snd number nodes

theorem map_node_consecutive (number : Nat) (nodes : List Node) :
    (consecutive number nodes).map Numbered.node = nodes := by
  rw [consecutive, List.map_map]
  exact List.zipIdx_map_fst number nodes

theorem flatMap_consecutive_siblings (number : Nat) (nodes : List Node) :
    (siblings number nodes).flatMap (fun m => consecutive m.number m.node.preorder) =
      consecutive number (Node.preorderAll nodes) := by
  induction nodes generalizing number with
  | nil => rfl
  | cons n rest ih =>
      rw [siblings, List.flatMap_cons, ih, Node.preorderAll, consecutive_append]
      rfl

theorem walk_eq_flatMap (stack : List Numbered) :
    walk stack = stack.flatMap (fun m => consecutive m.number m.node.preorder) := by
  fun_induction walk stack with
  | case1 => rfl
  | case2 m rest ih =>
      rw [ih, List.flatMap_append, children, flatMap_consecutive_siblings, List.flatMap_cons,
        Node.preorder_eq, consecutive_cons, List.cons_append]

theorem walk_singleton (m : Numbered) : walk [m] = consecutive m.number m.node.preorder := by
  rw [walk_eq_flatMap, List.flatMap_singleton]

theorem map_number_walk (m : Numbered) :
    (walk [m]).map Numbered.number = List.range' m.number m.node.size := by
  rw [walk_singleton, map_number_consecutive, Node.size]

theorem drop_one_walk (m : Numbered) :
    (walk [m]).drop 1 = consecutive (m.number + 1) m.node.strictlyBelow := by
  rw [walk_singleton, Node.preorder_eq, consecutive_cons]
  rfl

theorem descendants_eq_filter (m : Numbered) (kinds : Option (List Kind))
    (test : Numbered → Bool) :
    m.descendants kinds test =
      ((walk [m]).drop 1).filter fun c => c.node.keeps kinds && test c := by
  rw [descendants, List.filter_filter]
  congr
  funext c
  exact Bool.and_comm _ _

theorem map_node_descendants (m : Numbered) (kinds : Option (List Kind)) (test : Node → Bool) :
    (m.descendants kinds fun c => test c.node).map node = m.node.descendants kinds test := by
  rw [descendants_eq_filter, drop_one_walk, Node.descendants_eq_filter]
  conv =>
    rhs
    rw [← map_node_consecutive (m.number + 1) m.node.strictlyBelow, List.filter_map]
  rfl

theorem descendants_all (m : Numbered) :
    (m.descendants none fun _ => true) = (walk [m]).drop 1 := by
  rw [descendants_eq_filter]
  exact List.filter_eq_self.mpr fun _ _ => rfl

end Numbered

namespace Tree

theorem numbered?_eq_some_iff {t : Tree} {i : Nat} {m : Numbered} :
    t.numbered? i = some m ↔ m.number = i ∧ t.node? i = some m.node := by
  obtain ⟨number, n⟩ := m
  rw [numbered?, Option.map_eq_some_iff]
  constructor
  · rintro ⟨n', hn', heq⟩
    obtain ⟨rfl, rfl⟩ := Numbered.mk.inj heq
    exact ⟨rfl, hn'⟩
  · rintro ⟨rfl, hn⟩
    exact ⟨n, hn, rfl⟩

theorem entryAt?_add {t : Tree} {i k : Nat} {e : Entry} (h : t.entryAt? i = some e)
    (hk : k < e.node.size) : t.entryAt? (i + k) = (e.node.entries e.depth)[k]? := by
  obtain ⟨rest, hrest⟩ := Node.entries_prefix_drop h
  rw [← Node.length_entries e.depth] at hk
  rw [← List.getElem?_append_left hk, hrest, List.getElem?_drop]
  rfl

theorem node?_add {t : Tree} {i k : Nat} {n : Node} (h : t.node? i = some n) (hk : k < n.size) :
    t.node? (i + k) = n.preorder[k]? := by
  obtain ⟨e, he, rfl⟩ := Option.map_eq_some_iff.mp h
  rw [node?, entryAt?_add he hk, ← List.getElem?_map, Node.map_node_entries]

theorem map_some_walk {t : Tree} {i : Nat} {m : Numbered} (h : t.numbered? i = some m) :
    (Numbered.walk [m]).map some = (List.range' i m.node.size).map t.numbered? := by
  obtain ⟨rfl, hnode⟩ := numbered?_eq_some_iff.mp h
  rw [Numbered.walk_singleton]
  apply List.ext_getElem
  · simp [Numbered.consecutive, Node.size]
  · intro k hk hk'
    have hsize : k < m.node.preorder.length := by simpa [Numbered.consecutive] using hk
    have hat := node?_add hnode hsize
    rw [List.getElem?_eq_getElem hsize] at hat
    simp [Numbered.consecutive, numbered?, hat]

/-- A walk from a node in its place meets the nodes below it, in the order of their
numbers and each of them once, and a search keeps those of them that are of a kind
in question and pass the test. Searches over nodes without their places agree. -/
theorem descendants_by_number (t : Tree) {i : Nat} {m : Numbered} (hm : t.numbered? i = some m) :
    (m.descendants none fun _ => true).map some =
        (List.range' (i + 1) (m.node.size - 1)).map t.numbered? ∧
      ∀ kinds : Option (List Kind),
        (∀ test : Numbered → Bool,
          m.descendants kinds test = (m.descendants none fun _ => true).filter fun c =>
            kinds.all (fun kept => c.node.kind ∈ kept) && test c) ∧
        ∀ test : Node → Bool,
          m.node.descendants kinds test =
            (m.descendants kinds fun c => test c.node).map Numbered.node := by
  rw [Numbered.descendants_all]
  refine ⟨?_, fun kinds => ⟨fun test => ?_, fun test => ?_⟩⟩
  · rw [List.map_drop, map_some_walk hm, ← List.map_drop, List.drop_range']
  · simp only [Numbered.descendants_eq_filter, Node.keeps_eq_all]
  · exact (m.map_node_descendants kinds test).symm

def emptyName : Node :=
  { kind := .identifier, span := ⟨0, 0⟩, type := "identifier", field := none, name := some "",
    modifiers := [], inferred := false, children := [] }

def blockOf (children : List Node) : Node :=
  { kind := .block, span := ⟨0, 0⟩, type := "block", field := none, name := none,
    modifiers := [], inferred := false, children }

/-- Two names that look alike, the first of them in a block of its own. -/
def twinNames : Tree where
  root := blockOf [blockOf [emptyName], emptyName]
  source := []

/-- Places tell the two names apart, and the walk meets each of them once. -/
theorem descendants_by_number_twinNames :
    ((Numbered.mk 0 twinNames.root).descendants none fun _ => true).map Numbered.number =
        [1, 2, 3] ∧
      ((Numbered.mk 0 twinNames.root).descendants (some [.identifier]) fun c =>
        c.number != 2).map Numbered.number = [3] ∧
      (Numbered.mk 0 twinNames.root).descendants (some []) (fun _ => true) = [] ∧
      twinNames.root.descendants (some [.identifier]) (fun _ => true) =
        [emptyName, emptyName] := by
  have hroot : twinNames.numbered? 0 = some ⟨0, twinNames.root⟩ := rfl
  obtain ⟨hall, hsearch⟩ := descendants_by_number twinNames hroot
  have hbelow : (Numbered.mk 0 twinNames.root).descendants none (fun _ => true) =
      [⟨1, blockOf [emptyName]⟩, ⟨2, emptyName⟩, ⟨3, emptyName⟩] :=
    (List.map_inj_right fun _ _ => Option.some.inj).mp hall
  rw [hbelow] at hsearch
  refine ⟨?_, ?_, ?_, ?_⟩
  · rw [hbelow]
    rfl
  · rw [(hsearch _).1]
    rfl
  · rw [(hsearch _).1]
    rfl
  · rw [(hsearch _).2, (hsearch _).1]
    rfl

end Tree

end CSharpAudit
