import CSharpAudit.Finding
import CSharpAudit.Text.Quoted
import CSharpAudit.Tree.Basic

/-!
Rules. A rule looks at all nodes of one kind and objects to those that it matches.
-/

namespace CSharpAudit

structure Rule where
  title : String
  id : String
  label : String
  kind : Kind
  matches? : Node → Bool

namespace Rule

def description (r : Rule) : String :=
  r.title ++ "(id=" ++ Text.quoted r.id ++ ")"

/-- The nodes that the rule objects to. The root is never one of them. -/
def matchedNodes (r : Rule) (t : Tree) : List Node :=
  t.descendants (some [r.kind]) r.matches?

def finding (r : Rule) (t : Tree) (n : Node) : Except PositionError Finding := do
  let line ← t.lineOf n.span
  let column ← t.columnOf n.span
  return { ruleId := r.id, label := r.label, line, column, snippet := t.textOf n.span }

def detect (r : Rule) (t : Tree) : Except PositionError (List Finding) :=
  (r.matchedNodes t).mapM (r.finding t)

/-- A rule that objects to every node of a kind, or only to those that carry a modifier. -/
def forKind (title id label : String) (kind : Kind) (modifier : Option String) : Rule :=
  { title, id, label, kind
    matches? := fun n =>
      match modifier with
      | none => true
      | some m => n.modifierSet.contains m }

end Rule

end CSharpAudit
