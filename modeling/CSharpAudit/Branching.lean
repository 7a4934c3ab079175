/-!
Trees by the children of their nodes. What concrete trees and syntax trees have in common is
that every descent to children ends and that a node is listed before what stands below it. From
this alone follow induction over a tree and the laws of its pre-order.
-/

namespace CSharpAudit

section EachInTurn

variable {α β : Type}

theorem eq_map_of_cons {f : α → β} {each : List α → List β} (hnil : each [] = [])
    (hcons : ∀ a rest, each (a :: rest) = f a :: each rest) (items : List α) :
    each items = items.map f := by
  induction items with
  | nil => exact hnil
  | cons a rest ih => rw [hcons, ih, List.map_cons]

theorem eq_flatMap_of_cons {f : α → List β} {each : List α → List β} (hnil : each [] = [])
    (hcons : ∀ a rest, each (a :: rest) = f a ++ each rest) (items : List α) :
    each items = items.flatMap f := by
  induction items with
  | nil => exact hnil
  | cons a rest ih => rw [hcons, ih, List.flatMap_cons]

end EachInTurn

/-- Every descent ends, and `preorder` lists a node and then, child by child, what stands
below it. -/
structure Branching {N : Type} (children preorder : N → List N) : Prop where
  wellFounded : WellFounded fun c n => c ∈ children n
  preorder_eq : ∀ n, preorder n = n :: (children n).flatMap preorder

namespace Branching

variable {N M : Type} {children preorder : N → List N} {children' preorder' : M → List M}

theorem ofSize [SizeOf N] (hsize : ∀ n, sizeOf (children n) < sizeOf n)
    (hpreorder : ∀ n, preorder n = n :: (children n).flatMap preorder) :
    Branching children preorder := by
  refine ⟨Subrelation.wf ?_ (measure sizeOf).wf, hpreorder⟩
  intro c n hc
  exact Nat.lt_trans (List.sizeOf_lt_of_mem hc) (hsize n)

/-- What holds of a node whenever it holds of its children holds of every node. -/
theorem induction (b : Branching children preorder) {motive : N → Prop}
    (step : ∀ n, (∀ c ∈ children n, motive c) → motive n) (n : N) : motive n :=
  b.wellFounded.induction n step

theorem mem_preorder (b : Branching children preorder) {m n : N} :
    m ∈ preorder n ↔ m = n ∨ ∃ c ∈ children n, m ∈ preorder c := by
  rw [b.preorder_eq, List.mem_cons, List.mem_flatMap]

theorem self_mem (b : Branching children preorder) (n : N) : n ∈ preorder n :=
  b.mem_preorder.mpr (.inl rfl)

theorem mem_of_child (b : Branching children preorder) {m c n : N} (hc : c ∈ children n)
    (hm : m ∈ preorder c) : m ∈ preorder n :=
  b.mem_preorder.mpr (.inr ⟨c, hc, hm⟩)

theorem child_mem (b : Branching children preorder) {c n root : N} (hn : n ∈ preorder root)
    (hc : c ∈ children n) : c ∈ preorder root := by
  induction root using b.induction with
  | step root ih =>
    rcases b.mem_preorder.mp hn with rfl | ⟨d, hd, hn⟩
    · exact b.mem_of_child hc (b.self_mem c)
    · exact b.mem_of_child hd (ih d hd hn)

/-- A map of nodes that carries children to children carries the pre-order along. -/
theorem preorder_map (b : Branching children preorder) (b' : Branching children' preorder')
    {f : N → M} (hf : ∀ n, children' (f n) = (children n).map f) (n : N) :
    preorder' (f n) = (preorder n).map f := by
  induction n using b.induction with
  | step n ih =>
    have hbelow : (children n).flatMap (fun c => preorder' (f c)) =
        (children n).flatMap (fun c => (preorder c).map f) := by
      rw [List.flatMap_def, List.flatMap_def, List.map_congr_left ih]
    rw [b.preorder_eq, b'.preorder_eq, hf, List.flatMap_map, hbelow, List.map_cons,
      List.map_flatMap]

end Branching

end CSharpAudit
