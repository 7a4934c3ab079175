import CSharpAudit.Proofs.Concrete.DeclaredType
import CSharpAudit.Proofs.Tree.Kinds
import CSharpAudit.Proofs.Tree.Roles
import CSharpAudit.Rule.Builtin
import CSharpAudit.Tree.Parse

/-!
Which declarations hide a primitive type. Lists of modifiers have no role, so the
child that the rule finds in the role of the type is the first structural child in
that role that is no modifier, as it was read or as a placeholder. The rule objects
to a declaration exactly if that child asks for inference and the type that the
declaration shows is one of the names.
-/

namespace CSharpAudit

namespace Node

theorem find?_withInferredType (name : String) (nodes : List Node) :
    (withInferredType name nodes).find? (fun c => c.field == some "type") =
      (nodes.find? fun c => c.field == some "type").map
        fun c => if c.asksForInference then c.placeholder name else c := by
  induction nodes with
  | nil => rfl
  | cons n rest ih =>
      by_cases hfield : n.field = some "type"
      · cases hasks : n.asksForInference <;> simp [withInferredType, placeholder, hfield, hasks]
      · simp [withInferredType, hfield, ih]

theorem childByField?_ofConcrete (source : Bytes) {raw : Concrete.Node}
    (htype : raw.type = "variable_declaration") :
    (ofConcrete source raw).childByField? "type" =
      (raw.children.find? Concrete.Node.namesType).map fun c =>
        if c.asksForInference source then
          (ofConcrete source c).placeholder (raw.declaredType source)
        else ofConcrete source c := by
  have hkind : Kind.ofType raw.type = .variableDeclaration := by
    rw [htype]
    decide
  have hplays : Concrete.Node.plays "type" = Concrete.Node.namesType := rfl
  rw [childByField?, children_ofConcrete, hkind, childrenOf, find?_withInferredType,
    find?_gatherModifiers_partsOf, Option.map_map, hplays]
  simp only [Function.comp_def, asksForInference_ofConcrete]

end Node

namespace Rule

theorem inferredPrimitive_matches_iff {names : List String} {source : Bytes} {n : Concrete.Node}
    (htype : n.type = "variable_declaration") :
    (inferredPrimitive names).matches? (Node.ofConcrete source n) = true ↔
      n.InfersOneOf source names := by
  rw [Concrete.Node.infersOneOf_iff]
  simp only [inferredPrimitive, Node.childByField?_ofConcrete source htype]
  cases n.children.find? Concrete.Node.namesType with
  | none => simp
  | some c =>
      cases hasks : c.asksForInference source with
      | false => simp [hasks]
      | true => simp [hasks, Node.placeholder, isPrimitive]

/-- The rule decides by the first initializer alone. Below the root it objects to
the declarations that ask for inference and show one of the names, in the order in
which they are reached, and every declaration shows one type. -/
theorem matchedNodes_inferredPrimitive {source : Bytes} {raw : Concrete.Node} {tree : Tree}
    (h : Tree.ofRead source raw = .ok tree) (names : List String) :
    (inferredPrimitive names).matchedNodes tree =
        (((raw.visits source).tail.map Concrete.Node.Visit.node).filter fun n =>
          n.type = "variable_declaration" ∧ n.InfersOneOf source names).map
            (Node.ofConcrete source) ∧
      ∀ n : Concrete.Node, n.type = "variable_declaration" →
        (∃! t, n.Declares source t) ∧
          ((inferredPrimitive names).matches? (Node.ofConcrete source n) = true ↔
            n.InfersOneOf source names) := by
  obtain ⟨-, rfl⟩ := Tree.ofRead_eq_ok_iff.mp h
  refine ⟨?_, fun n htype => ⟨?_, inferredPrimitive_matches_iff htype⟩⟩
  · have hkind : Kind.variableDeclaration.IsRead := by decide
    exact matchedNodes_eq_of_matches_iff (r := inferredPrimitive names) hkind
      (fun n htype => inferredPrimitive_matches_iff htype) raw
  · exact ⟨n.declaredType source, Concrete.Node.declares_iff.mpr rfl,
      fun t ht => (Concrete.Node.declares_iff.mp ht).symm⟩

/-- A declaration of two variables, the first one with a literal inside
parentheses and after a sign. -/
def twoDeclarators : Concrete.Node :=
  .branch "compilation_unit" ⟨0, 19⟩
    [.branch "variable_declaration" ⟨0, 19⟩
      [.withField "type" (.branch "implicit_type" ⟨0, 3⟩ []),
       .branch "variable_declarator" ⟨4, 12⟩
         [.branch "identifier" ⟨4, 5⟩ [], .token "=" ⟨6, 7⟩,
          .branch "parenthesized_expression" ⟨7, 12⟩
            [.token "(" ⟨7, 8⟩,
             .branch "prefix_unary_expression" ⟨8, 11⟩
               [.token "-" ⟨8, 9⟩, .branch "integer_literal" ⟨9, 11⟩ []],
             .token ")" ⟨11, 12⟩]],
       .token "," ⟨12, 13⟩,
       .branch "variable_declarator" ⟨14, 19⟩
         [.branch "identifier" ⟨14, 15⟩ [], .token "=" ⟨16, 17⟩,
          .branch "integer_literal" ⟨18, 19⟩ []]]]

/-- The declaration shows the type of its first literal, and that of the second
does not count. -/
theorem matchedNodes_inferredPrimitive_twoDeclarators :
    ∃ tree, Tree.ofRead (Utf8.encode "var a =(-7L), b = 1") twoDeclarators = .ok tree ∧
      ((inferredPrimitive ["long"]).matchedNodes tree).map Node.span = [⟨0, 19⟩] ∧
      (inferredPrimitive ["int"]).matchedNodes tree = [] := by
  obtain ⟨tree, htree⟩ : ∃ tree,
      Tree.ofRead (Utf8.encode "var a =(-7L), b = 1") twoDeclarators = .ok tree := ⟨_, rfl⟩
  refine ⟨tree, htree, ?_, ?_⟩
  · rw [(matchedNodes_inferredPrimitive htree ["long"]).1]
    decide +kernel
  · rw [(matchedNodes_inferredPrimitive htree ["int"]).1]
    decide +kernel

end Rule

end CSharpAudit
