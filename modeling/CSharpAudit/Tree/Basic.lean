import CSharpAudit.Source.LineTable
import CSharpAudit.Tree.Node

/-!
A syntax tree: a root node over the bytes of a source, and the places and texts of its nodes.
-/

namespace CSharpAudit

structure Tree where
  root : Node
  source : Bytes

namespace Tree

def lines (t : Tree) : LineTable :=
  LineTable.ofBytes t.source

def text (t : Tree) : String :=
  Utf8.decode t.source

def textOf (t : Tree) (s : Span) : String :=
  s.text t.source

def lineOf (t : Tree) (s : Span) : Except PositionError Nat :=
  t.lines.lineOf s.start

/-- The characters from the start of the line up to the span, plus one. -/
def columnOf (t : Tree) (s : Span) : Except PositionError Nat := do
  let line ← t.lines.lineOf s.start
  let start ← t.lines.lineStart line
  return (Span.text ⟨start, s.start⟩ t.source).length + 1

def descendants (t : Tree) (kinds : Option (List Kind)) (test : Node → Bool) : List Node :=
  t.root.descendants kinds test

end Tree

end CSharpAudit
