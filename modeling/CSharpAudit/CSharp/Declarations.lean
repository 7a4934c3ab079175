import CSharpAudit.CSharp.Statements

/-!
Members, types, namespaces and whole sources.
-/

namespace CSharpAudit.CSharp

open Rule (Form)

def heading : Form := .seq [attributes, modifiers]

/-- The type of a member, in whose place no other declaration may begin. -/
def memberType (field : String) : Form :=
  .seq [without declarationWords, .role field (.rule .type)]

def explicitInterface : Form :=
  let name : Form := nameWithArguments (nameBut ["operator", "this"])
  let step : Form := .seq [name, .opt (.seq [.mark "::", name]), .mark "."]
  .opt (.node "explicit_interface_specifier" (.seq [step, .many step]))

def accessorList : Form :=
  .node "accessor_list" (inBraces (.most (.node "accessor_declaration"
    (.seq [heading,
      .role "name" (.any [.words ["get", "set", "init", "add", "remove"], anyName]),
      functionBody]))))

def arrowValue : Form := .seq [.role "value" arrowClause, .mark ";"]

def field : Form :=
  .node "field_declaration" (.seq [heading, without declarationWords, .rule .variableDeclaration,
    .mark ";"])

def events : Form :=
  .any [
    .node "event_field_declaration"
      (.seq [heading, .word "event", .rule .variableDeclaration, .mark ";"]),
    .node "event_declaration" (.seq [heading, .word "event", .role "type" (.rule .type),
      explicitInterface, .role "name" newName,
      .any [.role "accessors" accessorList, .mark ";"]])]

def method : Form :=
  .node "method_declaration" (.seq [heading, memberType "returns", explicitInterface,
    signature, functionBody])

def property : Form :=
  .node "property_declaration" (.seq [heading, memberType "type", explicitInterface,
    .role "name" newName,
    .any [
      .seq [.role "accessors" accessorList,
        .opt (.seq [.mark "=", .role "value" (.rule .expression), .mark ";"])],
      arrowValue]])

def indexer : Form :=
  .node "indexer_declaration" (.seq [heading, memberType "type", explicitInterface,
    .word "this", .role "parameters" bracketedParameters,
    .any [.role "accessors" accessorList, arrowValue]])

def constructors : Form :=
  .any [
    .node "constructor_declaration" (.seq [heading,
      .role "name" (nameBut (modifierWords ++ declarationWords ++ typeWords)),
      .role "parameters" (.rule .parameterList),
      .opt (.node "constructor_initializer"
        (.seq [.mark ":", .words ["base", "this"], .rule .argumentList])),
      functionBody]),
    .node "destructor_declaration" (.seq [heading, .mark "~", .role "name" anyName,
      .role "parameters" (.rule .parameterList), functionBody])]

def operators : Form :=
  let symbol : Form := .any [
    joined [">", ">", ">"], joined [">", ">"], .words ["true", "false"],
    .marks ["++", "--", "+", "-", "!", "~", "*", "/", "%", "&", "|", "^", "<<", "==", "!=", "<=",
      ">=", "<", ">"]]
  .any [
    .node "operator_declaration" (.seq [heading, memberType "type", explicitInterface,
      .word "operator", .opt (.word "checked"), .role "operator" symbol,
      .role "parameters" (.rule .parameterList), functionBody]),
    .node "conversion_operator_declaration" (.seq [heading, .words ["implicit", "explicit"],
      explicitInterface, .word "operator", .opt (.word "checked"), .role "type" (.rule .type),
      .role "parameters" (.rule .parameterList), functionBody])]

def declarationList : Form :=
  .node "declaration_list" (inBraces (.most (.rule .member)))

def baseList : Form :=
  .node "base_list" (.seq [.mark ":", listOf (.any [
    .rule .type,
    .node "primary_constructor_base_type" (.seq [.role "type" (.rule .type),
      .rule .argumentList])])])

/-- What follows the name of a type with members, where some things stand before the constraints. -/
def typeTail (header : Form) : Form :=
  .seq [.role "name" anyName, header, constraints,
    .any [.seq [.role "body" (.rule .declarationList), .opt (.mark ";")], .mark ";"]]

/-- The parameters and the bases of a type whose values are constructed. -/
def constructedTail : Form :=
  typeTail (.many (.any [typeParameters, .rule .parameterList, baseList]))

def enumeration : Form :=
  let item : Form := .node "enum_member_declaration" (.seq [attributes, .role "name" anyName,
    .opt (.seq [.mark "=", .role "value" (.rule .expression)])])
  .node "enum_declaration" (.seq [heading, .word "enum", .role "name" anyName, .opt baseList,
    .role "body" (.node "enum_member_declaration_list" (inBraces (.seq [
      .most (.any [.seq [item, .mark ","], .seq [sectionOfOne item, .opt (.mark ",")]]),
      .opt item]))),
    .opt (.mark ";")])

def typeDeclaration : Form :=
  .any [
    .node "class_declaration" (.seq [heading, .word "class", constructedTail]),
    .node "struct_declaration" (.seq [heading, .word "struct", constructedTail]),
    .node "interface_declaration" (.seq [heading, .word "interface",
      typeTail (.seq [.opt (.role "type_parameters" typeParameters), .opt baseList])]),
    .node "record_declaration" (.seq [heading, .word "record", .opt (.words ["class", "struct"]),
      constructedTail]),
    enumeration,
    .node "delegate_declaration" (.seq [heading, .word "delegate", .role "type" (.rule .type),
      signature, .mark ";"])]

def usingDirective : Form :=
  .node "using_directive" (.seq [.opt (.word "global"), .word "using",
    .any [
      .seq [.opt (.word "unsafe"), .role "name" (nameBut ["static", "unsafe"]), .mark "=",
        .rule .type],
      .seq [.opt (.word "static"), .opt (.word "unsafe"), .opt (.seq [.role "name" anyName,
        .mark "="]), .rule .type]],
    .mark ";"])

def namespaceDeclaration : Form :=
  .node "namespace_declaration" (.seq [.word "namespace", .role "name" (.rule .qualifiedName),
    .role "body" (.rule .declarationList), .opt (.mark ";")])

def externAlias : Form :=
  .node "extern_alias_directive"
    (.seq [.word "extern", .word "alias", .role "name" anyName, .mark ";"])

def member : Form :=
  .any [.rule .typeDeclaration, events, operators, constructors, indexer, method, property, field,
    namespaceDeclaration, usingDirective, externAlias, sectionOf (.most (.rule .member))]

def unitPart : Form :=
  .any [
    externAlias, usingDirective,
    .node "global_attribute" (inSquares (.seq [.words ["assembly", "module"], .mark ":",
      listOf attributeItem, .opt (.mark ",")])),
    sectionOf (.most (.any [.rule .unitPart, .rule .statement])),
    namespaceDeclaration,
    .rule .typeDeclaration,
    .node "file_scoped_namespace_declaration"
      (.seq [.word "namespace", .role "name" (.rule .qualifiedName), .mark ";"])]

def unitItem : Form :=
  .any [
    .rule .unitPart,
    .node "global_statement"
      (.seq [without ["class", "enum", "interface", "namespace", "record", "struct"],
        .rule .statement])]

def unit : Form :=
  .seq [.most (.rule .unitItem), .tokenOf .finish]

end CSharpAudit.CSharp
