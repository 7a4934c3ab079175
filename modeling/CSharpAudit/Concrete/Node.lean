import CSharpAudit.Branching
import CSharpAudit.Source.Span

/-!
Concrete trees: what a grammar makes of a source, with every token, comment and place of damage.
-/

namespace CSharpAudit.Concrete

/-- A node of a concrete tree. Anonymous nodes are the grammar's own words and marks. A missing
node stands for a token that the text lacks. `damaged` says that something at or below the node
is wrong with the text. -/
structure Node where
  type : String
  span : Span
  field : Option String
  named : Bool
  missing : Bool
  damaged : Bool
  children : List Node
deriving Repr, Inhabited

namespace Node

def errorType : String := "ERROR"

/-- Damage of a node, read off its type, its presence and its children. -/
def derivedDamage (type : String) (missing : Bool) (children : List Node) : Bool :=
  type == errorType || missing || children.any Node.damaged

def branch (type : String) (span : Span) (children : List Node) : Node :=
  { type, span, field := none, named := true, missing := false,
    damaged := derivedDamage type false children, children }

def token (type : String) (span : Span) : Node :=
  { type, span, field := none, named := false, missing := false,
    damaged := type == errorType, children := [] }

def withField (field : String) (n : Node) : Node :=
  { n with field := some field }

/-- Named and no comment: the nodes that carry structure. -/
def isStructural (n : Node) : Bool :=
  n.named && n.type != "comment"

def isModifier (n : Node) : Bool :=
  n.type == "modifier"

/-- A comma of a list itself: one inside a member is no child of the list. -/
def isComma (n : Node) : Bool :=
  !n.named && n.type == ","

mutual

def preorder : Node → List Node
  | ⟨type, span, field, named, missing, damaged, children⟩ =>
    ⟨type, span, field, named, missing, damaged, children⟩ :: preorderAll children

def preorderAll : List Node → List Node
  | [] => []
  | n :: rest => n.preorder ++ preorderAll rest

end

theorem preorder_eq (n : Node) : n.preorder = n :: preorderAll n.children := by
  cases n
  rfl

theorem preorderAll_eq_flatMap (nodes : List Node) :
    preorderAll nodes = nodes.flatMap preorder :=
  eq_flatMap_of_cons rfl (fun _ _ => rfl) nodes

theorem preorderAll_append (a b : List Node) :
    preorderAll (a ++ b) = preorderAll a ++ preorderAll b := by
  simp only [preorderAll_eq_flatMap, List.flatMap_append]

theorem branching : Branching children preorder := by
  apply Branching.ofSize
  · intro n
    cases n
    simp only [mk.sizeOf_spec]
    omega
  · intro n
    rw [preorder_eq, preorderAll_eq_flatMap]

def childByField? (n : Node) (field : String) : Option Node :=
  n.children.find? (fun c => c.field == some field)

end Node

end CSharpAudit.Concrete
