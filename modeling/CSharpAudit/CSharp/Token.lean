import CSharpAudit.Concrete.Node

/-!
Tokens of C#, and the words that have a meaning of their own somewhere. No word is reserved
everywhere: a word is a name wherever the grammar has no other use for it, so each place has its own
list of words that cannot be names there.
-/

namespace CSharpAudit.CSharp

inductive TokenKind
  | word
  /-- A word that has a meaning of its own in some places. -/
  | keyword
  /-- A name behind an at sign, which is never a keyword. -/
  | verbatimWord
  | integer
  | real
  | character
  | string
  | verbatimString
  | rawString
  | textOpen
  | textPart
  | textClose
  /-- The brace or braces before an interpolated expression. -/
  | holeOpen
  | holeClose
  /-- What stands between the colon and the end of an interpolated expression. -/
  | format
  | mark
  | stray
  | finish
deriving DecidableEq, Repr

structure Token where
  kind : TokenKind
  text : String
  span : Span
  /-- Whether nothing stands between the token before and this one. -/
  joined : Bool
  trivia : List Concrete.Node

def predefinedTypes : List String :=
  ["bool", "byte", "char", "decimal", "double", "float", "int", "long", "nint", "nuint", "object",
    "sbyte", "short", "string", "uint", "ulong", "ushort", "void"]

/-- Words with which a type can begin. -/
def typeWords : List String :=
  predefinedTypes ++ ["delegate", "ref"]

def valueWords : List String :=
  ["__makeref", "__reftype", "__refvalue", "async", "await", "base", "checked", "default", "false",
    "new", "null", "sizeof", "stackalloc", "static", "this", "throw", "true", "typeof", "unchecked"]

def expressionWords : List String :=
  typeWords ++ valueWords

/-- Words that modify a declaration wherever they stand before it. -/
def modifierWords : List String :=
  ["abstract", "async", "const", "extern", "fixed", "internal", "new", "override", "partial",
    "private", "protected", "public", "readonly", "required", "sealed", "static", "unsafe",
    "virtual", "volatile"]

/-- Words with which only a statement that is neither a declaration nor an expression can begin. -/
def statementWords : List String :=
  ["break", "continue", "do", "for", "foreach", "goto", "if", "lock", "return", "switch", "try",
    "using", "while"]

/-- Words with which a declaration can begin, modifiers and types apart. -/
def declarationWords : List String :=
  ["class", "enum", "event", "explicit", "implicit", "interface", "namespace", "record", "struct",
    "using"]

def innerWords : List String :=
  ["and", "as", "case", "catch", "else", "finally", "in", "is", "not", "operator", "or", "out",
    "params", "with"]

/-- All the words that have a meaning of their own in places where a name could stand. -/
def keywords : List String :=
  expressionWords ++ modifierWords ++ statementWords ++ declarationWords ++ innerWords

end CSharpAudit.CSharp
