import CSharpAudit.CSharp.Pattern

/-!
The names of the rules of C#, and ways to build patterns. A rule comes behind those that it may begin
with.
-/

namespace CSharpAudit.CSharp

inductive Rule
  | sectionTest
  | typeArguments
  | simpleName
  | qualifiedName
  | baseType
  | type
  | attributeList
  | parameter
  | parameterList
  | argumentList
  | bracketedArguments
  | tuplePattern
  | initializer
  | block
  | interpolated
  | creation
  | primary
  /-- Operands with calls, members and elements. -/
  | suffixed
  | cast
  | prefixed
  | awaited
  | unary
  | range
  /-- Operands with choices by pattern and copies with changes. -/
  | matched
  | product
  | sum
  | shift
  | relation
  | equality
  | bitAnd
  | bitXor
  | bitOr
  | logicalAnd
  | logicalOr
  | coalescing
  /-- Expressions with members or elements of what may be null. -/
  | accessed
  | target
  | assignment
  | lambda
  | query
  | queryBody
  /-- Expressions that reach as far to the right as they can, and may stand behind any operator. -/
  | rightward
  | expression
  | argument
  | patternPrimary
  | patternNot
  | patternAnd
  | patternOr
  | switchArm
  | variableDeclaration
  | statement
  | typeDeclaration
  | member
  | declarationList
  | unitPart
  | unitItem
  | unit
deriving DecidableEq

namespace Rule

abbrev Form := Pattern Rule

end Rule

open Rule (Form)

def nameBut (excluded : List String) : Form := .name excluded "identifier"

def anyName : Form := nameBut []

def valueName : Form := nameBut expressionWords

def typeName : Form := nameBut typeWords

def newName : Form := nameBut ["as", "in", "is", "operator", "switch", "this", "with"]

def without (texts : List String) : Form :=
  .notAhead (.oneOf texts "identifier")

/-- One or more, with commas between them. -/
def listOf (item : Form) : Form :=
  .seq [item, .many (.seq [.mark ",", item])]

def optionalList (item : Form) : Form :=
  .opt (listOf item)

/-- Any number, with commas between them and perhaps one behind the last. -/
def openList (item : Form) : Form :=
  .seq [.opt (listOf item), .opt (.mark ",")]

def inParens (inner : Form) : Form :=
  .seq [.mark "(", inner, .mark ")"]

def inSquares (inner : Form) : Form :=
  .seq [.mark "[", inner, .mark "]"]

def inBraces (inner : Form) : Form :=
  .seq [.mark "\x7b", inner, .mark "\x7d"]

def inAngles (inner : Form) : Form :=
  .seq [.mark "<", inner, .mark ">"]

/-- Marks that follow each other without space. -/
def joined (texts : List String) : Form :=
  match texts with
  | [] => .seq []
  | first :: rest => .seq (.mark first :: rest.flatMap (fun m => [.glued, .mark m]))

def sectionTest : Form :=
  let operand : Form := .any [.oneOf ["true", "false"] "boolean_literal", anyName,
    .leaf .integer "integer_literal", .leaf .character "character_literal",
    inParens (.rule .sectionTest)]
  let signed : Form := .seq [.many (.mark "!"), operand]
  .seq [signed, .many (.seq [.marks ["||", "&&", "==", "!="], signed])]

/-- What is there under a condition, and what is there otherwise. -/
def sectionOf (content : Form) : Form :=
  let test : Form := .seq [.role "condition" (.rule .sectionTest), .mark "\n"]
  .node "preproc_if" (.seq [.mark "#if", test, content,
    .many (.role "alternative" (.node "preproc_elif" (.seq [.mark "#elif", test, content]))),
    .opt (.role "alternative" (.node "preproc_else" (.seq [.mark "#else", content]))),
    .mark "#endif"])

/-- A section with at most one item, perhaps with a comma behind it. -/
def sectionOfOne (item : Form) : Form :=
  sectionOf (.opt (.seq [item, .opt (.mark ",")]))

end CSharpAudit.CSharp
