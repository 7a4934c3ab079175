import CSharpAudit.Concrete.Node
import CSharpAudit.Text.Blank
import CSharpAudit.Text.Case

/-!
The type that a declaration without a written type shows by its initializer. Only the form of the
initializer counts: a literal tells its type by its suffix, a cast, a creation and a default value
name it, and parentheses and unary operators pass the question on to their operand. Everything
else stays without a known type.
-/

namespace CSharpAudit

/-- The word that asks for inference, and the name of a type that inference cannot tell. -/
def inferenceWord : String := "var"

/-- The type of an integer literal, by its suffix in either case. -/
def integerType (literal : String) : String :=
  let ending := (Text.lowerPlain literal.toList).reverse
  if ['l', 'u'].isPrefixOf ending || ['u', 'l'].isPrefixOf ending then "ulong"
  else if ['u'].isPrefixOf ending then "uint"
  else if ['l'].isPrefixOf ending then "long"
  else "int"

/-- The type of a literal with a fraction or an exponent, by its suffix in either case. -/
def realType (literal : String) : String :=
  let ending := (Text.lowerPlain literal.toList).reverse
  if ['f'].isPrefixOf ending then "float"
  else if ['m'].isPrefixOf ending then "decimal"
  else "double"

namespace Concrete.Node

def stringLiteralTypes : List String :=
  ["string_literal", "verbatim_string_literal", "raw_string_literal",
    "interpolated_string_expression"]

/-- Expressions that name their type in a child of that role. -/
def typeNamingTypes : List String :=
  ["cast_expression", "object_creation_expression", "default_expression"]

/-- Expressions that have the type of their last operand. -/
def wrappingTypes : List String :=
  ["parenthesized_expression", "prefix_unary_expression"]

def text (n : Node) (source : Bytes) : String :=
  n.span.text source

def writtenType (n : Node) (source : Bytes) : String :=
  match n.childByField? "type" with
  | some type => Text.trim (type.text source)
  | none => inferenceWord

mutual

def shownType (source : Bytes) : Node → String
  | ⟨type, span, field, named, missing, damaged, children⟩ =>
    let self : Node := ⟨type, span, field, named, missing, damaged, children⟩
    if type = "integer_literal" then integerType (self.text source)
    else if type = "real_literal" then realType (self.text source)
    else if type = "character_literal" then "char"
    else if stringLiteralTypes.contains type then "string"
    else if type = "boolean_literal" then "bool"
    else if typeNamingTypes.contains type then self.writtenType source
    else if wrappingTypes.contains type then (lastShownType? source children).getD inferenceWord
    else inferenceWord

def lastShownType? (source : Bytes) : List Node → Option String
  | [] => none
  | n :: rest =>
    match lastShownType? source rest with
    | some type => some type
    | none => if n.isStructural then some (shownType source n) else none

end

/-- The initializer among the parts of a declarator: what an initializer clause holds, or the
first structural part after the equals sign, whichever comes first. -/
def initializerAmong? (afterEquals : Bool) : List Node → Option Node
  | [] => none
  | n :: rest =>
    if n.type = "=" then initializerAmong? true rest
    else if n.type = "equals_value_clause" then n.children.find? isStructural
    else if afterEquals && n.isStructural then some n
    else initializerAmong? afterEquals rest

/-- The initializer of the first declarator. Later declarators are never asked. -/
def firstInitializer? (declaration : Node) : Option Node :=
  (declaration.children.find? (fun c => c.type == "variable_declarator")).bind
    (fun declarator => initializerAmong? false declarator.children)

def declaredType (declaration : Node) (source : Bytes) : String :=
  match declaration.firstInitializer? with
  | some initializer => shownType source initializer
  | none => inferenceWord

end Concrete.Node

end CSharpAudit
