import CSharpAudit.Concrete.Node
import CSharpAudit.Text.Blank

/-!
Damage of a concrete tree and the error that reports it. The error names the first place, in
pre-order, that is missing or unreadable. The search enters a child only if the child is marked
as damaged or is missing itself.
-/

namespace CSharpAudit

inductive SyntaxError.Cause
  | missing (type : String)
  /-- Text that fits nowhere, by the start of its first line. -/
  | unexpected (excerpt : String)
  | unexpectedInput
  /-- The tree is marked as damaged and shows no place of damage. -/
  | unlocated
  | described (detail : String)
deriving DecidableEq, Repr

def SyntaxError.Cause.detail : SyntaxError.Cause → String
  | .missing type => "missing '" ++ type ++ "'"
  | .unexpected excerpt => "unexpected '" ++ excerpt ++ "'"
  | .unexpectedInput => "unexpected input"
  | .unlocated => "source could not be parsed"
  | .described detail => detail

/-- Why a text is no program, and where: lines and columns count from 1. -/
structure SyntaxError where
  cause : SyntaxError.Cause
  line : Option Int := none
  column : Option Int := none
deriving DecidableEq, Repr

def SyntaxError.message (e : SyntaxError) : String :=
  match e.line, e.column with
  | some line, some column =>
    "Syntax error at line " ++ toString line ++ ", column " ++ toString column ++ ": " ++
      e.cause.detail
  | _, _ => "Syntax error: " ++ e.cause.detail

namespace Concrete

/-- A place as the grammar counts it: line feeds before it, and bytes since the last of them. -/
structure Point where
  row : Nat
  column : Nat
deriving DecidableEq, Repr

def Point.ofOffset (source : Bytes) (offset : Int) : Point :=
  let before := source.take (Span.clamp source.length offset)
  { row := before.count 0x0A
    column := (before.reverse.takeWhile (· != 0x0A)).length }

namespace Node

/-- A place where the text itself is wrong. -/
def isFault (n : Node) : Bool :=
  n.missing || n.type == errorType

def isSuspect (n : Node) : Bool :=
  n.damaged || n.missing

theorem length_preorderAll_filter_le (keep : Node → Bool) (nodes : List Node) :
    (preorderAll (nodes.filter keep)).length ≤ (preorderAll nodes).length := by
  induction nodes with
  | nil => simp
  | cons n rest ih =>
    by_cases h : keep n = true
    · simp [h, preorderAll, ih]
    · rw [List.filter_cons_of_neg h, preorderAll, List.length_append]
      omega

def suspects (n : Node) : List Node :=
  n.children.filter isSuspect

/-- The first fault that a search meets which keeps a stack of nodes still to visit, the next one
on top. A node that is no fault gives way to its suspect children, the first of them on top. -/
def faultFrom? : List Node → Option Node
  | [] => none
  | n :: rest =>
    if n.isFault then some n else faultFrom? (n.suspects ++ rest)
termination_by stack => (preorderAll stack).length
decreasing_by
  have h := length_preorderAll_filter_le isSuspect n.children
  simp only [suspects, preorderAll, preorder_eq, preorderAll_append, List.length_append,
    List.length_cons]
  omega

def firstFault? (root : Node) : Option Node :=
  faultFrom? [root]

end Node

def excerptLength : Nat := 40

/-- The start of the first line of a text, or nothing if there is nothing to show. -/
def excerpt? (text : String) : Option String :=
  let trimmed := Text.trimEnd (Text.trimStart text.toList)
  if h : trimmed = [] then none
  else
    let first := (Text.splitLines trimmed).head (Text.splitLines_ne_nil h)
    let shown := first.take excerptLength
    if shown.isEmpty then none else some (String.ofList shown)

def Node.faultCause (n : Node) (source : Bytes) : SyntaxError.Cause :=
  if n.missing then .missing n.type
  else
    match excerpt? (n.span.text source) with
    | some excerpt => .unexpected excerpt
    | none => .unexpectedInput

def Node.faultError (fault : Node) (source : Bytes) : SyntaxError :=
  let point := Point.ofOffset source fault.span.start
  { cause := fault.faultCause source
    line := some (point.row + 1)
    column := some (point.column + 1) }

/-- The error that a damaged tree over `source` reports. -/
def Node.syntaxError (root : Node) (source : Bytes) : SyntaxError :=
  match root.firstFault? with
  | some fault => fault.faultError source
  | none => { cause := .unlocated }

end Concrete

end CSharpAudit
