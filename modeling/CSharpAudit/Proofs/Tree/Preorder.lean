import CSharpAudit.Tree.Node

/-!
The walk with a stack visits the nodes in pre-order. Its stack always holds the
roots of what is still to be visited, in order, so what it visits from a stack on
is the pre-order of the stack.
-/

namespace CSharpAudit.Node

theorem walk_eq_preorderAll (stack : List Node) : walk stack = preorderAll stack := by
  fun_induction walk stack with
  | case1 => rfl
  | case2 n rest ih =>
      rw [ih, preorderAll_append, preorderAll, preorder_eq, List.cons_append]

theorem descendants_eq_filter (n : Node) (kinds : Option (List Kind)) (test : Node → Bool) :
    n.descendants kinds test = n.strictlyBelow.filter (fun m => keeps kinds m && test m) := by
  have hwalk : (walk [n]).drop 1 = n.strictlyBelow := by
    rw [walk_eq_preorderAll, preorderAll, preorderAll, List.append_nil, preorder_eq]
    rfl
  rw [descendants, hwalk, List.filter_filter]
  congr
  funext m
  exact Bool.and_comm _ _

end CSharpAudit.Node
