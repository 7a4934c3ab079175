import CSharpAudit.Tree.Parse

/-!
The search for damage. The stack of the search holds the roots of what is still
to be searched, in order and pruned of what is not suspect, so the search ends
at the first fault, in pre-order, of the pruned tree. Where the marks of damage
agree with the faults below them, pruning takes away no fault at all, and the
search ends at the first fault of the whole tree.
-/

namespace CSharpAudit.Concrete

namespace Node

mutual

/-- The tree without the children, at any depth, that are neither marked as
damaged nor missing. -/
def pruned : Node → Node
  | ⟨type, span, field, named, missing, damaged, children⟩ =>
    ⟨type, span, field, named, missing, damaged, prunedAll children⟩

def prunedAll : List Node → List Node
  | [] => []
  | n :: rest =>
    if n.damaged || n.missing then n.pruned :: prunedAll rest else prunedAll rest

end

theorem prunedAll_eq_map (nodes : List Node) :
    prunedAll nodes = (nodes.filter isSuspect).map pruned := by
  induction nodes with
  | nil => rfl
  | cons n rest ih =>
      rw [prunedAll, ih, List.filter_cons]
      split <;> simp_all [isSuspect]

theorem pruned_eq (n : Node) : n.pruned = { n with children := n.suspects.map pruned } := by
  cases n
  rw [pruned, prunedAll_eq_map, suspects]

@[simp] theorem isFault_pruned (n : Node) : n.pruned.isFault = n.isFault := by
  rw [pruned_eq]
  rfl

@[simp] theorem faultError_pruned (n : Node) (source : Bytes) :
    n.pruned.faultError source = n.faultError source := by
  rw [pruned_eq]
  rfl

/-- What the search finds from a stack on is the first fault of the pruned
trees on the stack. -/
theorem map_pruned_faultFrom? (stack : List Node) :
    (faultFrom? stack).map pruned = (preorderAll (stack.map pruned)).find? isFault := by
  fun_induction faultFrom? stack with
  | case1 => rfl
  | case2 n rest hfault =>
      have hpruned : n.pruned.isFault = true := by rw [isFault_pruned, hfault]
      rw [List.map_cons, preorderAll, preorder_eq, List.cons_append,
        List.find?_cons_of_pos hpruned]
      rfl
  | case3 n rest hfault ih =>
      have hpruned : ¬ n.pruned.isFault = true := by rwa [isFault_pruned]
      -- what the search puts on the stack are the children of the pruned node
      have hchildren : n.pruned.children = n.suspects.map pruned := by rw [pruned_eq]
      rw [ih, List.map_append, preorderAll_append, List.map_cons, preorderAll, preorder_eq,
        List.cons_append, List.find?_cons_of_neg hpruned, hchildren]

/-- Marks of damage that agree with the tree: a node is marked exactly if it
is unreadable, missing or the parent of a marked node. -/
def FlagsConsistent (root : Node) : Prop :=
  ∀ n ∈ root.preorder,
    n.damaged = true ↔
      n.type = "ERROR" ∨ n.missing = true ∨ ∃ c ∈ n.children, c.damaged = true

theorem FlagsConsistent.child {n c : Node} (h : n.FlagsConsistent) (hc : c ∈ n.children) :
    c.FlagsConsistent :=
  fun m hm => h m (branching.mem_of_child hc hm)

theorem isFault_iff (n : Node) : n.isFault = true ↔ n.type = "ERROR" ∨ n.missing = true := by
  simp [isFault, errorType, or_comm]

theorem FlagsConsistent.damaged_iff {n : Node} (h : n.FlagsConsistent) :
    n.damaged = true ↔ ∃ m ∈ n.preorder, m.isFault = true := by
  induction n using Node.branching.induction with
  | step n ih =>
      have hself : n.damaged = true ↔
          n.isFault = true ∨ ∃ c ∈ n.children, c.damaged = true := by
        rw [h n (branching.self_mem n), isFault_iff, or_assoc]
      have hchildren : (∃ c ∈ n.children, c.damaged = true) ↔
          ∃ c ∈ n.children, ∃ m ∈ c.preorder, m.isFault = true :=
        exists_congr fun c => and_congr_right fun hc => ih c hc (h.child hc)
      rw [hself, hchildren]
      constructor
      · rintro (hfault | ⟨c, hc, m, hm, hfault⟩)
        · exact ⟨n, branching.self_mem n, hfault⟩
        · exact ⟨m, branching.mem_of_child hc hm, hfault⟩
      · rintro ⟨m, hm, hfault⟩
        rcases branching.mem_preorder.mp hm with rfl | ⟨c, hc, hm⟩
        · exact .inl hfault
        · exact .inr ⟨c, hc, m, hm, hfault⟩

theorem FlagsConsistent.find?_eq_none {n : Node} (h : n.FlagsConsistent)
    (hsound : ¬ n.isSuspect = true) : n.preorder.find? isFault = none := by
  rw [List.find?_eq_none]
  intro m hm hfault
  apply hsound
  rw [isSuspect, h.damaged_iff.mpr ⟨m, hm, hfault⟩, Bool.true_or]

theorem find?_preorderAll_filter_isSuspect {nodes : List Node}
    (h : ∀ n ∈ nodes, n.FlagsConsistent) :
    (preorderAll (nodes.filter isSuspect)).find? isFault =
      (preorderAll nodes).find? isFault := by
  induction nodes with
  | nil => rfl
  | cons n rest ih =>
      obtain ⟨hn, hrest⟩ := List.forall_mem_cons.mp h
      by_cases hsuspect : n.isSuspect = true
      · rw [List.filter_cons_of_pos hsuspect, preorderAll, preorderAll, List.find?_append,
          List.find?_append, ih hrest]
      · rw [List.filter_cons_of_neg hsuspect, preorderAll, List.find?_append,
          hn.find?_eq_none hsuspect, Option.none_or, ih hrest]

theorem faultFrom?_of_consistent (stack : List Node) (h : ∀ n ∈ stack, n.FlagsConsistent) :
    faultFrom? stack = (preorderAll stack).find? isFault := by
  fun_induction faultFrom? stack with
  | case1 => rfl
  | case2 n rest hfault =>
      rw [preorderAll, preorder_eq, List.cons_append, List.find?_cons_of_pos hfault]
  | case3 n rest hfault ih =>
      obtain ⟨hn, hrest⟩ := List.forall_mem_cons.mp h
      have hchildren : ∀ c ∈ n.children, c.FlagsConsistent := fun c hc => hn.child hc
      have hstack : ∀ m ∈ n.suspects ++ rest, m.FlagsConsistent := by
        intro m hm
        rcases List.mem_append.mp hm with hm | hm
        · exact hchildren m (List.mem_filter.mp hm).1
        · exact hrest m hm
      rw [ih hstack, preorderAll_append, List.find?_append, suspects,
        find?_preorderAll_filter_isSuspect hchildren, preorderAll, preorder_eq, List.cons_append,
        List.find?_cons_of_neg hfault, List.find?_append]

theorem map_pruned_firstFault? (root : Node) :
    root.firstFault?.map pruned = root.pruned.preorder.find? isFault := by
  rw [firstFault?, map_pruned_faultFrom?, List.map_singleton, preorderAll, preorderAll,
    List.append_nil]

theorem firstFault?_of_consistent {root : Node} (h : root.FlagsConsistent) :
    root.firstFault? = root.preorder.find? isFault := by
  rw [firstFault?, faultFrom?_of_consistent [root] (by simpa using h), preorderAll, preorderAll,
    List.append_nil]

end Node

end CSharpAudit.Concrete
