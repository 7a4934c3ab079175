import CSharpAudit.Branching
import CSharpAudit.Source.Span

/-!
Syntax nodes: the structure of a program without its punctuation and comments, and the questions
that rules ask of a node.
-/

namespace CSharpAudit

/-- The kinds of nodes that rules tell apart. All other nodes are of kind `other` and are known by
their type alone. -/
inductive Kind
  | compilationUnit
  | fieldDeclaration
  | variableDeclaration
  | methodDeclaration
  | parameterList
  | parameter
  | ifStatement
  | block
  | identifier
  | modifierList
  | other
deriving DecidableEq, Repr

namespace Kind

def name : Kind → String
  | .compilationUnit => "compilation_unit"
  | .fieldDeclaration => "field_declaration"
  | .variableDeclaration => "variable_declaration"
  | .methodDeclaration => "method_declaration"
  | .parameterList => "parameter_list"
  | .parameter => "parameter"
  | .ifStatement => "if_statement"
  | .block => "block"
  | .identifier => "identifier"
  | .modifierList => "modifier_list"
  | .other => "other"

def all : List Kind :=
  [.compilationUnit, .fieldDeclaration, .variableDeclaration, .methodDeclaration, .parameterList,
    .parameter, .ifStatement, .block, .identifier, .modifierList, .other]

def ofName? (name : String) : Option Kind :=
  all.find? (fun k => k.name == name)

/-- The kind of a node that a grammar calls `type`. Lists of modifiers have no type of their own:
they are made when a tree is built. -/
def ofType (type : String) : Kind :=
  match ofName? type with
  | some .modifierList => .other
  | some kind => kind
  | none => .other

end Kind

/-- A node of a syntax tree. `field` is its role in its parent. `name` is the text of an
identifier; for an inferred type it is the type that the initializer shows. `modifiers` are the
words of a list of modifiers, each once. -/
structure Node where
  kind : Kind
  span : Span
  type : String
  field : Option String
  name : Option String
  modifiers : List String
  inferred : Bool
  children : List Node
deriving Repr

namespace Node

def childByField? (n : Node) (field : String) : Option Node :=
  n.children.find? (fun c => c.field == some field)

def childrenOfKind (n : Node) (kind : Kind) : List Node :=
  n.children.filter (fun c => c.kind == kind)

def modifierSet (n : Node) : List String :=
  if n.kind = .modifierList then n.modifiers
  else ((n.childrenOfKind .modifierList).flatMap Node.modifiers).eraseDups

mutual

def preorder : Node → List Node
  | ⟨kind, span, type, field, name, modifiers, inferred, children⟩ =>
    ⟨kind, span, type, field, name, modifiers, inferred, children⟩ :: preorderAll children

def preorderAll : List Node → List Node
  | [] => []
  | n :: rest => n.preorder ++ preorderAll rest

end

theorem preorder_eq (n : Node) : n.preorder = n :: preorderAll n.children := by
  cases n
  rfl

theorem preorderAll_eq_flatMap (nodes : List Node) :
    preorderAll nodes = nodes.flatMap preorder :=
  eq_flatMap_of_cons rfl (fun _ _ => rfl) nodes

theorem preorderAll_append (a b : List Node) :
    preorderAll (a ++ b) = preorderAll a ++ preorderAll b := by
  simp only [preorderAll_eq_flatMap, List.flatMap_append]

theorem branching : Branching children preorder := by
  apply Branching.ofSize
  · intro n
    cases n
    simp only [mk.sizeOf_spec]
    omega
  · intro n
    rw [preorder_eq, preorderAll_eq_flatMap]

def strictlyBelow (n : Node) : List Node :=
  preorderAll n.children

/-- The nodes that a walk meets which keeps a stack of nodes still to visit, the next one on top:
the node on top is visited and its children take its place, the first of them on top. -/
def walk : List Node → List Node
  | [] => []
  | n :: rest => n :: walk (n.children ++ rest)
termination_by stack => (preorderAll stack).length
decreasing_by simp [preorderAll, preorder_eq, preorderAll_append]

/-- Which kinds a search keeps: all of them, or those of a list. -/
def keeps (kinds : Option (List Kind)) (n : Node) : Bool :=
  match kinds with
  | none => true
  | some kinds => kinds.contains n.kind

/-- Everything below the node that is of a kept kind and passes the test, in the order of a walk
that starts at the node and leaves the node itself out. -/
def descendants (n : Node) (kinds : Option (List Kind)) (test : Node → Bool) : List Node :=
  (((walk [n]).drop 1).filter (keeps kinds)).filter test

def size (n : Node) : Nat :=
  n.preorder.length

def methodCount (n : Node) : Nat :=
  (n.strictlyBelow.filter (fun c => c.kind == .methodDeclaration)).length

end Node

end CSharpAudit
