import CSharpAudit.CSharp.Lexer
import CSharpAudit.CSharp.Production
import CSharpAudit.Tree.Parse

/-!
The grammar of C#, as a function from bytes to concrete trees.
-/

namespace CSharpAudit.CSharp

/-- The tree of a source that cannot be read: the first part of it with which nothing can be done is
marked. -/
def unreadable (whole : Span) (input : Input) : Concrete.Node :=
  let readable := (Pattern.read Rule.number (.many (.rule .unitItem)) input).map Reading.taken
  let rest := input.tokens.drop (readable.foldl max 0)
  let place := (rest.head?.map Token.span).getD whole
  Concrete.Node.branch "compilation_unit" whole
    [Concrete.Node.branch "ERROR" ⟨place.start, whole.stop⟩ []]

def grammar : Grammar := fun source =>
  let whole : Span := ⟨0, source.length⟩
  let tokens := tokenize (Utf8.decodeChars source)
  let input := Pattern.inputOf Rule.number (Rule.all.map production) tokens
  match Pattern.read Rule.number (.rule .unit) input with
  | reading :: _ =>
    Concrete.Node.branch "compilation_unit" whole (reading.nodes.filter (fun n => n.named))
  | [] => unreadable whole input

end CSharpAudit.CSharp
