import CSharpAudit.Rule.Basic

/-!
The built-in rules: public fields, public fields that can be written, inferred types that hide a
primitive one, methods with many parameters, and nested conditions that could be one.
-/

namespace CSharpAudit.Rule

/-- Fields that everyone sees. A declaration of several fields is one match. -/
def publicField : Rule where
  title := "PublicFieldRule"
  id := "public-field"
  label := "Public field"
  kind := .fieldDeclaration
  matches? n := n.modifierSet.contains "public"

def publicWritableField : Rule where
  title := "PublicNonReadonlyFieldRule"
  id := "public-non-readonly-field"
  label := "Public non-readonly field"
  kind := .fieldDeclaration
  matches? n := n.modifierSet.contains "public" && !n.modifierSet.contains "readonly"

def primitiveNames : List String :=
  ["int", "uint", "short", "ushort", "long", "ulong", "byte", "sbyte", "char", "float", "double",
    "decimal"]

def isPrimitive (names : List String) (type : String) : Bool :=
  names.contains type

def inferredPrimitive (names : List String) : Rule where
  title := "InferredPrimitiveTypeRule"
  id := "var-primitive-type"
  label := "var used with primitive type"
  kind := .variableDeclaration
  matches? n :=
    match n.childByField? "type" with
    | none => false
    | some type =>
      type.inferred && type.kind == .identifier &&
        match type.name with
        | none => false
        | some name => isPrimitive names name

def defaultLimit : Int := 5

/-- The parameters of the list in the role of parameters, or else of the first parameter list. -/
def parameterCount (method : Node) : Nat :=
  let list? := (method.childByField? "parameters").or (method.childrenOfKind .parameterList).head?
  match list? with
  | none => 0
  | some list => (list.childrenOfKind .parameter).length

def longParameterList (limit : Int) : Rule where
  title := "LongParameterListRule"
  id := "long-parameter-list"
  label := "Method with long parameter list"
  kind := .methodDeclaration
  matches? n := limit < parameterCount n

/-- A condition whose body is a block with nothing but one condition that has no alternative. -/
def isCollapsible (n : Node) : Bool :=
  match n.childByField? "consequence" with
  | none => false
  | some body =>
    body.kind == .block &&
      match body.children with
      | [inner] => inner.kind == .ifStatement && (inner.childByField? "alternative").isNone
      | _ => false

def collapsibleIf : Rule where
  title := "CollapsibleNestedIfRule"
  id := "collapsible-nested-if"
  label := "Nested if statement that can be simplified"
  kind := .ifStatement
  matches? := isCollapsible

end CSharpAudit.Rule
