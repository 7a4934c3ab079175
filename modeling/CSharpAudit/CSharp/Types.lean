import CSharpAudit.CSharp.Rule

/-!
Types, and what declarations of all sorts are made of: names, attributes, modifiers, parameters and
variables.
-/

namespace CSharpAudit.CSharp

open Rule (Form)

def predefined : Form := .oneOf predefinedTypes "predefined_type"

def nameWithArguments (name : Form) : Form :=
  .any [.node "generic_name" (.seq [name, .rule .typeArguments]), name]

def simpleName : Form := nameWithArguments typeName

/-- A name behind a point, where no word has another meaning. -/
def memberName : Form := .role "name" (nameWithArguments anyName)

/-- Arguments of a generic type. They may all be left out, where a type is only named. -/
def typeArguments : Form :=
  .node "type_argument_list" (inAngles (.any [listOf (.rule .type), .many (.mark ",")]))

def aliasName (name : Form) : Form :=
  .node "alias_qualified_name" (.seq [.role "alias" name, .mark "::", memberName])

def qualifiedName : Form :=
  .fold (.any [aliasName typeName, .rule .simpleName])
    [.mk "qualified_name" "qualifier" (.seq [.mark ".", memberName])]

def tupleType : Form :=
  let element : Form :=
    .node "tuple_element" (.seq [.role "type" (.rule .type), .opt (.role "name" newName)])
  .node "tuple_type"
    (inParens (.seq [element, .mark ",", element, .many (.seq [.mark ",", element])]))

def functionPointerType : Form :=
  .node "function_pointer_type"
    (.seq [.word "delegate", .mark "*", .opt (.words ["managed", "unmanaged"]),
      .opt (inSquares (listOf anyName)),
      inAngles (listOf (.seq [.many (.oneOf ["ref", "out", "in", "readonly"] "modifier"),
        .rule .type]))])

def refType : Form :=
  .node "ref_type" (.seq [.word "ref", .opt (.word "readonly"), .role "type" (.rule .type)])

def scopedType : Form :=
  .node "scoped_type" (.seq [.word "scoped", .role "type" (.any [refType, .rule .qualifiedName])])

def baseType : Form :=
  .any [predefined, tupleType, functionPointerType, refType, scopedType, .rule .qualifiedName]

def rank : Form :=
  .node "array_rank_specifier" (inSquares
    (.seq [.opt (.rule .expression), .many (.seq [.mark ",", .opt (.rule .expression)])]))

def arraySuffix : Suffix Rule := .mk "array_type" "type" (.role "rank" rank)

def type : Form :=
  .fold (.rule .baseType)
    [.mk "nullable_type" "type" (.mark "?"), .mk "pointer_type" "type" (.mark "*"), arraySuffix]

def implicitType : Form := .oneOf ["var"] "implicit_type"

def attributeArguments : Form :=
  .node "attribute_argument_list" (inParens (optionalList (.node "attribute_argument"
    (.seq [.opt (.seq [valueName, .marks [":", "="]]), .rule .expression]))))

def attributeItem : Form :=
  .node "attribute" (.seq [.role "name" (.rule .qualifiedName), .opt attributeArguments])

def attributeTargets : List String :=
  ["field", "event", "method", "param", "property", "return", "type"]

def attributeList : Form :=
  .node "attribute_list" (inSquares (.seq [
    .opt (.node "attribute_target_specifier" (.seq [.words attributeTargets, .mark ":"])),
    listOf attributeItem, .opt (.mark ",")]))

def attributes : Form :=
  .many (.any [.rule .attributeList, sectionOfOne (.rule .attributeList)])

/-- Modifiers of members, types and variables. Of the words that modify, one may be a name as well. -/
def modifiers : Form :=
  let reserved : Form := .most (.any [.oneOf modifierWords "modifier",
    .seq [.oneOf ["ref"] "modifier", .ahead (.words ["struct", "partial"])]])
  .seq [reserved, .many (.seq [.oneOf ["file"] "modifier", reserved])]

/-- What a variable starts with, or what a parameter is if no argument is given. -/
def defaultValue : Form := .seq [.mark "=", .rule .expression]

/-- Words with which a parameter can begin, but no type. -/
def parameterWords : List String := ["in", "out", "params", "readonly", "this"]

def parameter : Form :=
  let modifiers : Form := .many (.oneOf ["this", "scoped", "ref", "out", "in", "readonly"] "modifier")
  .node "parameter" (.seq [attributes,
    .any [
      .seq [modifiers, without parameterWords, .role "type" (.rule .type), .role "name" newName],
      .role "name" (nameBut (typeWords ++ parameterWords))],
    .opt defaultValue])

def parameterArray : Form :=
  .seq [attributes, .word "params", .role "type" (.rule .type), .role "name" newName]

def parameterList : Form :=
  .node "parameter_list" (inParens (optionalList (.any [.rule .parameter, parameterArray])))

def bracketedParameters : Form :=
  .node "bracketed_parameter_list" (inSquares (listOf (.any [.rule .parameter, parameterArray])))

def typeParameters : Form :=
  .node "type_parameter_list" (inAngles (listOf (.node "type_parameter"
    (.seq [attributes, .opt (.words ["in", "out"]), .role "name" anyName]))))

def constraints : Form :=
  let item : Form := .node "type_parameter_constraint" (.any [
    .seq [.word "class", .opt (.mark "?")], .word "struct",
    .seq [.word "new", .mark "(", .mark ")"], .word "default",
    .role "type" (.seq [without ["class", "new", "struct"], .rule .type])])
  .many (.node "type_parameter_constraints_clause"
    (.seq [.word "where", anyName, .mark ":", listOf item]))

def signature : Form :=
  .seq [.role "name" newName, .opt (.role "type_parameters" typeParameters),
    .role "parameters" (.rule .parameterList), constraints]

def tuplePattern : Form :=
  .node "tuple_pattern" (inParens (listOf (.any [
    .oneOf ["_"] "discard", .role "name" anyName, .rule .tuplePattern])))

/-- One variable, or one value taken apart into several variables. -/
def declarator : Form :=
  .node "variable_declarator" (.seq [.any [.role "name" newName, .rule .tuplePattern],
    .opt (.rule .bracketedArguments), .opt defaultValue])

def variablesBy (declarator : Form) : Form :=
  .node "variable_declaration"
    (.seq [.role "type" (.any [implicitType, .rule .type]), listOf declarator])

def variableDeclaration : Form := variablesBy declarator

def heldVariables : Form :=
  variablesBy (.node "variable_declarator" (.seq [.role "name" newName, .opt defaultValue]))

def argumentList : Form :=
  .node "argument_list" (inParens (optionalList (.rule .argument)))

def bracketedArguments : Form :=
  .node "bracketed_argument_list" (inSquares (listOf (.rule .argument)))

def arrowClause : Form :=
  .node "arrow_expression_clause" (.seq [.mark "=>", .rule .expression])

def functionBody : Form :=
  .any [
    .role "body" (.rule .block),
    .seq [.role "body" arrowClause, .mark ";"],
    .mark ";"]

end CSharpAudit.CSharp
