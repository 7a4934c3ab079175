import CSharpAudit.Tree.InferredType

/-!
What a declaration shows of its type, told by searches in lists of children: the
last structural operand, the first child in the role of a type, the first
declarator and its initializer.
-/

namespace CSharpAudit.Concrete.Node

theorem lastShownType?_eq (source : Bytes) (nodes : List Node) :
    lastShownType? source nodes =
      ((nodes.filter isStructural).map (shownType source)).getLast? := by
  induction nodes with
  | nil => rfl
  | cons n rest ih =>
      rw [lastShownType?, ih, List.filter_cons]
      split
      · next hlast =>
        split
        · rw [List.map_cons, List.getLast?_cons, hlast, Option.getD_some]
        · exact hlast.symm
      · next hlast =>
        split
        · rw [List.map_cons, List.getLast?_cons, hlast, Option.getD_none]
        · exact hlast.symm

theorem writtenType_eq (n : Node) (source : Bytes) :
    n.writtenType source =
      ((n.children.find? (fun c => c.field == some "type")).map
        (fun c => Text.trim (c.text source))).getD inferenceWord := by
  rw [writtenType, childByField?]
  cases n.children.find? (fun c => c.field == some "type") <;> rfl

theorem declaredType_eq (n : Node) (source : Bytes) :
    n.declaredType source =
      ((n.children.find? (fun c => c.type == "variable_declarator")).map
        (fun d => (initializerAmong? false d.children).map (shownType source))).join.getD
          inferenceWord := by
  rw [declaredType, firstInitializer?]
  cases n.children.find? (fun c => c.type == "variable_declarator") with
  | none => rfl
  | some d =>
      rw [Option.bind_some, Option.map_some, Option.join_some]
      cases initializerAmong? false d.children <;> rfl

/-- The type that an expression shows, told from what is read off the node
itself and from the types that its parts show. -/
theorem shownType_congr {source source' : Bytes} {n m : Node} (htype : n.type = m.type)
    (htext : n.text source = m.text source')
    (hwritten : n.writtenType source = m.writtenType source')
    (hlast : lastShownType? source n.children = lastShownType? source' m.children) :
    n.shownType source = m.shownType source' := by
  obtain ⟨nt, ns, nf, nn, nm, nd, nc⟩ := n
  obtain ⟨mt, ms, mf, mn, mm, md, mc⟩ := m
  obtain rfl : nt = mt := htype
  simp only [shownType, htext, hwritten, hlast]

end CSharpAudit.Concrete.Node
