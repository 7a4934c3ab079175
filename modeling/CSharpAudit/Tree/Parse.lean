import CSharpAudit.Concrete.Damage
import CSharpAudit.Log
import CSharpAudit.Tree.OfConcrete

/-!
Parsing a text with a grammar. A grammar is any function from bytes to a concrete tree; a text is
a program if the tree of its bytes is not marked as damaged.
-/

namespace CSharpAudit

abbrev Grammar := Bytes → Concrete.Node

def withoutMark (text : String) : String :=
  match text.toList with
  | '\uFEFF' :: rest => String.ofList rest
  | _ => text

namespace Tree

def sourceOf (text : String) : Bytes :=
  Utf8.encode (withoutMark text)

/-- The tree of a source that the grammar has read as `raw`. -/
def ofRead (source : Bytes) (raw : Concrete.Node) : Except SyntaxError Tree :=
  if raw.damaged then .error (raw.syntaxError source)
  else .ok { root := Node.ofConcrete source raw, source }

theorem ofRead_eq_ok_iff {source : Bytes} {raw : Concrete.Node} {tree : Tree} :
    ofRead source raw = .ok tree ↔
      raw.damaged = false ∧ tree = { root := Node.ofConcrete source raw, source } := by
  rw [ofRead]
  cases raw.damaged with
  | true => simp
  | false => simp [eq_comm (b := tree)]

def parse (grammar : Grammar) (text : String) : Except SyntaxError Tree :=
  ofRead (sourceOf text) (grammar (sourceOf text))

theorem parse_eq_ok {grammar : Grammar} {text : String}
    (h : (grammar (sourceOf text)).damaged = false) :
    parse grammar text = .ok
      { root := Node.ofConcrete (sourceOf text) (grammar (sourceOf text))
        source := sourceOf text } := by
  rw [parse, ofRead, h, if_neg Bool.false_ne_true]

theorem parse_eq_error_iff {grammar : Grammar} {text : String} {e : SyntaxError} :
    parse grammar text = .error e ↔
      (grammar (sourceOf text)).damaged = true ∧
        (grammar (sourceOf text)).syntaxError (sourceOf text) = e := by
  rw [parse, ofRead]
  split <;> simp_all

def parseRecord (raw : Concrete.Node) : Log.Record :=
  if raw.damaged then
    ⟨.warning, "sharplint.parser", "Parse completed with errors: root=" ++ raw.type⟩
  else ⟨.debug, "sharplint.parser", "Parse succeeded: root=" ++ raw.type⟩

def parseLog (grammar : Grammar) (text : String) : List Log.Record :=
  [parseRecord (grammar (sourceOf text))]

end Tree

end CSharpAudit
