import CSharpAudit.Proofs.Tree.Numbering
import Mathlib.Data.List.Nodup

/-!
Upward questions against downward ones. A walk meets every node that it does not
start with as the child of exactly one node that it meets, so the index of parents
has one entry for each node but the root. A climb therefore goes from node to parent
up to the root, and what it meets are the nodes from which a walk meets its start:
both step from a node to its one parent.
-/

namespace CSharpAudit

namespace Numbered

/-- What a walk meets: its stack, and the children of what it meets, each once. -/
theorem perm_walk (stack : List Numbered) :
    (walk stack).Perm (stack ++ (walk stack).flatMap children) := by
  fun_induction walk stack with
  | case1 => exact .refl []
  | case2 m rest ih =>
      rw [List.flatMap_cons, List.cons_append, ← List.append_assoc]
      exact .cons m (ih.trans (List.perm_append_comm.append_right _))

theorem cons_drop_one_walk (m : Numbered) : m :: (walk [m]).drop 1 = walk [m] := by
  rw [walk]
  rfl

theorem perm_drop_one_walk (m : Numbered) :
    ((walk [m]).drop 1).Perm ((walk [m]).flatMap children) :=
  ((List.Perm.of_eq m.cons_drop_one_walk).trans (perm_walk [m])).cons_inv

theorem mem_walk_singleton {m c : Numbered} :
    c ∈ walk [m] ↔ c = m ∨ c ∈ (walk [m]).drop 1 := by
  rw [← List.mem_cons, cons_drop_one_walk]

theorem mem_drop_one_walk {m c : Numbered} :
    c ∈ (walk [m]).drop 1 ↔ ∃ p ∈ walk [m], c ∈ p.children := by
  rw [(perm_drop_one_walk m).mem_iff, List.mem_flatMap]

theorem mem_drop_one_walk_of_mem_children {m c : Numbered} (h : c ∈ m.children) :
    c ∈ (walk [m]).drop 1 :=
  mem_drop_one_walk.mpr ⟨m, mem_walk_singleton.mpr (.inl rfl), h⟩

theorem exists_entriesOfAll_of_mem_siblings {number : Nat} {nodes : List Node} {c : Numbered}
    (h : c ∈ siblings number nodes) (depth : Nat) :
    ∃ k, c.number = number + k ∧ (Node.entriesOfAll depth nodes)[k]? = some ⟨c.node, depth⟩ := by
  induction nodes generalizing number with
  | nil => simp [siblings] at h
  | cons n rest ih =>
      rw [Node.entriesOfAll]
      rcases List.mem_cons.mp h with rfl | h
      · refine ⟨0, rfl, ?_⟩
        rw [Node.entries_eq]
        rfl
      · obtain ⟨k, hk, hget⟩ := ih h
        refine ⟨n.size + k, by omega, ?_⟩
        rw [← Node.length_entries depth, List.getElem?_append_right (Nat.le_add_right _ _),
          Nat.add_sub_cancel_left, hget]

end Numbered

namespace Tree

theorem entryAt?_zero (t : Tree) : t.entryAt? 0 = some ⟨t.root, 0⟩ := by
  rw [entryAt?, entries, Node.entries_eq]
  rfl

theorem numbered?_zero (t : Tree) : t.numbered? 0 = some ⟨0, t.root⟩ := by
  rw [numbered?, node?, entryAt?_zero]
  rfl

theorem lt_size_of_entryAt? {t : Tree} {i : Nat} {e : Entry} (h : t.entryAt? i = some e) :
    i < t.root.size := by
  rw [← Node.length_entries 0]
  exact (List.getElem?_eq_some_iff.mp h).1

theorem numbered?_of_mem_walk {t : Tree} {i : Nat} {m c : Numbered} (hm : t.numbered? i = some m)
    (hc : c ∈ Numbered.walk [m]) : t.numbered? c.number = some c := by
  have hmem := List.mem_map_of_mem (f := some) hc
  rw [map_some_walk hm] at hmem
  obtain ⟨j, -, hj⟩ := List.mem_map.mp hmem
  rwa [(numbered?_eq_some_iff.mp hj).1]

theorem lt_size_of_numbered? {t : Tree} {i : Nat} {m : Numbered} (h : t.numbered? i = some m) :
    i < t.root.size := by
  obtain ⟨e, he, -⟩ := Option.map_eq_some_iff.mp (numbered?_eq_some_iff.mp h).2
  exact lt_size_of_entryAt? he

theorem mem_walk_root {t : Tree} {i : Nat} {m : Numbered} (h : t.numbered? i = some m) :
    m ∈ Numbered.walk [⟨0, t.root⟩] := by
  have hrange : i ∈ List.range' 0 t.root.size :=
    List.mem_range'_1.mpr ⟨Nat.zero_le i, by simpa using lt_size_of_numbered? h⟩
  have hmem := List.mem_map_of_mem (f := t.numbered?) hrange
  rw [← map_some_walk t.numbered?_zero, h] at hmem
  obtain ⟨c, hc, heq⟩ := List.mem_map.mp hmem
  exact Option.some.inj heq ▸ hc

theorem mem_childNumbers {t : Tree} {c p : Nat} :
    c ∈ t.childNumbers p (fun _ => true) ↔
      ∃ m, t.numbered? p = some m ∧ ∃ d ∈ m.children, d.number = c := by
  rw [childNumbers]
  cases t.numbered? p with
  | none => simp
  | some m => simp

theorem mem_descendantNumbers {t : Tree} {m n : Nat} :
    n ∈ t.descendantNumbers m none (fun _ => true) ↔
      ∃ a, t.numbered? m = some a ∧ ∃ c ∈ (Numbered.walk [a]).drop 1, c.number = n := by
  rw [descendantNumbers]
  cases t.numbered? m with
  | none => simp
  | some a => simp only [Numbered.descendants_all, List.mem_map, Option.some.injEq, exists_eq_left']

/-! The index of parents. -/

theorem perm_keys_parents (t : Tree) :
    (t.parents.map Prod.fst).Perm (List.range' 1 (t.root.size - 1)) := by
  have hkeys : t.parents.map Prod.fst =
      ((Numbered.walk [⟨0, t.root⟩]).flatMap Numbered.children).map Numbered.number := by
    simp only [parents, List.map_flatMap, List.map_map]
    rfl
  have hnumbers : ((Numbered.walk [⟨0, t.root⟩]).drop 1).map Numbered.number =
      List.range' 1 (t.root.size - 1) := by
    rw [List.map_drop, Numbered.map_number_walk, List.drop_range']
  rw [hkeys, ← hnumbers]
  exact ((Numbered.perm_drop_one_walk _).map _).symm

theorem parent?_eq_some_iff_mem {t : Tree} {c p : Nat} :
    t.parent? c = some p ↔ (c, p) ∈ t.parents := by
  refine ⟨mem_parents_of_parent?, fun h => ?_⟩
  have hnodup : (t.parents.map Prod.fst).Nodup :=
    t.perm_keys_parents.nodup_iff.mpr List.nodup_range'
  obtain ⟨before, after, heq⟩ := List.append_of_mem h
  rw [heq, List.map_append, List.map_cons] at hnodup
  refine List.lookup_eq_some_iff.mpr ⟨before, after, heq, fun e he => ?_⟩
  have hne := (List.nodup_append.mp hnodup).2.2 e.1 (List.mem_map_of_mem he) c List.mem_cons_self
  simpa using hne.symm

/-- The parent of a node is the one node that has it among its children. -/
theorem parent?_eq_some_iff {t : Tree} {c p : Nat} :
    t.parent? c = some p ↔ c ∈ t.childNumbers p (fun _ => true) := by
  rw [parent?_eq_some_iff_mem, mem_childNumbers, parents, List.mem_flatMap]
  constructor
  · rintro ⟨m, hm, hmem⟩
    obtain ⟨d, hd, heq⟩ := List.mem_map.mp hmem
    obtain ⟨rfl, rfl⟩ := Prod.mk.inj heq
    exact ⟨m, numbered?_of_mem_walk t.numbered?_zero hm, d, hd, rfl⟩
  · rintro ⟨m, hm, d, hd, rfl⟩
    obtain ⟨rfl, -⟩ := numbered?_eq_some_iff.mp hm
    exact ⟨m, mem_walk_root hm, List.mem_map_of_mem hd⟩

theorem exists_parent?_iff {t : Tree} {n : Nat} :
    (∃ p, t.parent? n = some p) ↔ 1 ≤ n ∧ n < t.root.size := by
  have hkeys : (∃ p, (n, p) ∈ t.parents) ↔ n ∈ t.parents.map Prod.fst := by
    simp
  have hrange : n ∈ List.range' 1 (t.root.size - 1) ↔ 1 ≤ n ∧ n < t.root.size := by
    rw [List.mem_range'_1]
    omega
  simp only [parent?_eq_some_iff_mem]
  rw [hkeys, t.perm_keys_parents.mem_iff, hrange]

theorem parent?_eq_none_iff {t : Tree} {n : Nat} (hn : n < t.root.size) :
    t.parent? n = none ↔ n = 0 := by
  rw [Option.eq_none_iff_forall_ne_some, ← not_exists, exists_parent?_iff]
  omega

theorem map_node?_childNumbers {t : Tree} {p : Nat} {n : Node} (h : t.node? p = some n) :
    (t.childNumbers p fun _ => true).map t.node? = n.children.map some := by
  have hm : t.numbered? p = some ⟨p, n⟩ := numbered?_eq_some_iff.mpr ⟨rfl, h⟩
  have hchild (c : Numbered) (hc : c ∈ Numbered.children ⟨p, n⟩) :
      t.node? c.number = some c.node := by
    have hwalk := Numbered.mem_walk_singleton.mpr
      (.inr (Numbered.mem_drop_one_walk_of_mem_children hc))
    exact (numbered?_eq_some_iff.mp (numbered?_of_mem_walk hm hwalk)).2
  rw [childNumbers, hm]
  simp only [List.filter_true, List.map_map]
  rw [← Numbered.map_node_siblings (p + 1) n.children, List.map_map]
  exact List.map_congr_left hchild

/-! The climb. -/

/-- A node is met by a walk from above exactly if its parent is where the walk starts
or is met by it. -/
theorem mem_descendantNumbers_iff {t : Tree} {m n : Nat} :
    n ∈ t.descendantNumbers m none (fun _ => true) ↔
      ∃ p, t.parent? n = some p ∧
        (m = p ∨ p ∈ t.descendantNumbers m none fun _ => true) := by
  simp only [mem_descendantNumbers, parent?_eq_some_iff, mem_childNumbers]
  constructor
  · rintro ⟨a, ha, c, hc, rfl⟩
    obtain ⟨p, hp, hchild⟩ := Numbered.mem_drop_one_walk.mp hc
    refine ⟨p.number, ⟨p, numbered?_of_mem_walk ha hp, c, hchild, rfl⟩, ?_⟩
    rcases Numbered.mem_walk_singleton.mp hp with rfl | hp
    · exact .inl (numbered?_eq_some_iff.mp ha).1.symm
    · exact .inr ⟨a, ha, p, hp, rfl⟩
  · rintro ⟨p, ⟨q, hq, c, hchild, rfl⟩, rfl | ⟨a, ha, q', hq', rfl⟩⟩
    · exact ⟨q, hq, c, Numbered.mem_drop_one_walk_of_mem_children hchild, rfl⟩
    · have hwalk := Numbered.mem_walk_singleton.mpr (.inr hq')
      obtain rfl := Option.some.inj ((numbered?_of_mem_walk ha hwalk).symm.trans hq)
      exact ⟨a, ha, c, Numbered.mem_drop_one_walk.mpr ⟨q', hwalk, hchild⟩, rfl⟩

theorem mem_ancestors_iff {t : Tree} {m n : Nat} :
    m ∈ t.ancestors n ↔ n ∈ t.descendantNumbers m none fun _ => true := by
  fun_induction t.ancestors n with
  | case1 n hnone =>
      rw [mem_descendantNumbers_iff]
      simp [hnone]
  | case2 n p hparent ih =>
      rw [List.mem_cons, ih, mem_descendantNumbers_iff (n := n)]
      simp [hparent]

theorem isChain_ancestors (t : Tree) (n : Nat) :
    (n :: t.ancestors n).IsChain (fun c p => t.parent? c = some p) := by
  fun_induction t.ancestors n with
  | case1 n hnone => exact .singleton n
  | case2 n p hparent ih => exact .cons_cons hparent ih

theorem nodup_ancestors (t : Tree) (n : Nat) : (t.ancestors n).Nodup := by
  have hdown : (n :: t.ancestors n).IsChain (· > ·) :=
    (t.isChain_ancestors n).imp fun c p h => lt_of_mem_parents (mem_parents_of_parent? h)
  exact (List.isChain_iff_pairwise.mp hdown).tail.imp Nat.ne_of_gt

theorem exists_entryAt?_of_parent? {t : Tree} {n p : Nat} (h : t.parent? n = some p) :
    ∃ above below : Entry, t.entryAt? p = some above ∧ t.entryAt? n = some below ∧
      below.depth = above.depth + 1 := by
  obtain ⟨m, hm, c, hc, rfl⟩ := mem_childNumbers.mp (parent?_eq_some_iff.mp h)
  obtain ⟨rfl, hnode⟩ := numbered?_eq_some_iff.mp hm
  obtain ⟨e, he, hroot⟩ := Option.map_eq_some_iff.mp hnode
  obtain ⟨k, hnumber, hget⟩ := Numbered.exists_entriesOfAll_of_mem_siblings hc (e.depth + 1)
  have hbelow : (e.node.entries e.depth)[k + 1]? = some ⟨c.node, e.depth + 1⟩ := by
    rw [Node.entries_eq, List.getElem?_cons_succ, hroot, hget]
  have hsize : k + 1 < e.node.size := by
    rw [← Node.length_entries e.depth]
    exact (List.getElem?_eq_some_iff.mp hbelow).1
  refine ⟨e, ⟨c.node, e.depth + 1⟩, he, ?_, rfl⟩
  rw [hnumber, Nat.add_assoc, Nat.add_comm 1, entryAt?_add he hsize, hbelow]

theorem length_ancestors {t : Tree} {n : Nat} {e : Entry} (h : t.entryAt? n = some e) :
    (t.ancestors n).length = e.depth := by
  fun_induction t.ancestors n generalizing e with
  | case1 n hnone =>
      obtain rfl := (parent?_eq_none_iff (lt_size_of_entryAt? h)).mp hnone
      obtain rfl := Option.some.inj (h.symm.trans t.entryAt?_zero)
      rfl
  | case2 n p hparent ih =>
      obtain ⟨above, below, habove, hbelow, hdepth⟩ := exists_entryAt?_of_parent? hparent
      obtain rfl := Option.some.inj (h.symm.trans hbelow)
      rw [List.length_cons, ih habove, hdepth]

theorem getLast?_ancestors {t : Tree} {n : Nat} (hn : n < t.root.size) (hne : n ≠ 0) :
    (t.ancestors n).getLast? = some 0 := by
  fun_induction t.ancestors n with
  | case1 n hnone => exact absurd ((parent?_eq_none_iff hn).mp hnone) hne
  | case2 n p hparent ih =>
      have hlt := lt_of_mem_parents (mem_parents_of_parent? hparent)
      rw [List.getLast?_cons]
      by_cases hp : p = 0
      · have hroot : t.ancestors p = [] := by
          rw [← List.length_eq_zero_iff, hp, length_ancestors t.entryAt?_zero]
        rw [hroot, hp]
        rfl
      · rw [ih (Nat.lt_trans hlt hn) hp]
        rfl

/-- Climbing from a node and walking down to it are two sides of one relation: the
climb meets exactly the nodes from which a walk meets it, one on each level, from its
parent outwards to the root. The parent of a node is the one that has it among its
children, and only the root has none. -/
theorem ancestors_dual_to_descendants (t : Tree) {n : Nat} {e : Entry}
    (hn : t.entryAt? n = some e) :
    (∀ m, m ∈ t.ancestors n ↔ n ∈ t.descendantNumbers m none fun _ => true) ∧
      (t.ancestors n).length = e.depth ∧ (t.ancestors n).Nodup ∧
      (n :: t.ancestors n).IsChain (fun c p => t.parent? c = some p) ∧
      (n ≠ 0 → (t.ancestors n).getLast? = some 0) ∧
      (t.parent? n = none ↔ n = 0) ∧
      (∀ p, t.parent? n = some p ↔ n ∈ t.childNumbers p fun _ => true) ∧
      ∀ p m, t.node? p = some m →
        (t.childNumbers p fun _ => true).map t.node? = m.children.map some := by
  have hsize := lt_size_of_entryAt? hn
  refine ⟨fun m => mem_ancestors_iff, length_ancestors hn, t.nodup_ancestors n,
    t.isChain_ancestors n, getLast?_ancestors hsize, parent?_eq_none_iff hsize, ?_, ?_⟩
  · intro p
    exact parent?_eq_some_iff
  · intro p m hm
    exact map_node?_childNumbers hm

/-- The block around the first of two names that look alike is met by the climb from
that name alone. -/
theorem ancestors_dual_twinNames :
    twinNames.ancestors 2 = [1, 0] ∧ twinNames.ancestors 3 = [0] ∧
      2 ∈ twinNames.descendantNumbers 1 none (fun _ => true) ∧
      3 ∉ twinNames.descendantNumbers 1 none fun _ => true := by
  have hfirst : twinNames.entryAt? 2 = some ⟨emptyName, 2⟩ := rfl
  have hsecond : twinNames.entryAt? 3 = some ⟨emptyName, 1⟩ := rfl
  obtain ⟨hdual, hdepth, -, hchain, hlast, -, hparent, -⟩ :=
    ancestors_dual_to_descendants twinNames hfirst
  obtain ⟨hdual', hdepth', -, -, hlast', -, -, -⟩ :=
    ancestors_dual_to_descendants twinNames hsecond
  obtain ⟨p, q, hclimb⟩ := List.length_eq_two.mp hdepth
  obtain ⟨r, hclimb'⟩ := List.length_eq_one_iff.mp hdepth'
  rw [hclimb] at hchain hlast
  rw [hclimb'] at hlast'
  have hone : twinNames.parent? 2 = some 1 := (hparent 1).mpr (by decide)
  obtain rfl : p = 1 :=
    Option.some.inj ((List.isChain_cons_cons.mp hchain).1.symm.trans hone)
  obtain rfl : q = 0 := by simpa using hlast
  obtain rfl : r = 0 := by simpa using hlast'
  refine ⟨hclimb, hclimb', (hdual 1).mp ?_, fun hmem => ?_⟩
  · simp [hclimb]
  · have hmem := (hdual' 1).mpr hmem
    simp [hclimb'] at hmem

end Tree

end CSharpAudit
