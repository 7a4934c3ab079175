import CSharpAudit.CSharp.Types

/-!
Expressions and the patterns that values are tested against.
-/

namespace CSharpAudit.CSharp

open Rule (Form)

def declarationExpression : Form :=
  .node "declaration_expression" (.seq [.role "type" (.rule .type), .role "name" newName])

def argument : Form :=
  .node "argument" (.seq [
    .opt (.seq [.role "name" valueName, .mark ":"]),
    .any [.words ["out", "ref", "in"], without ["in", "out"]],
    .any [.rule .expression, declarationExpression]])

def initializer : Form :=
  .node "initializer_expression" (inBraces (openList (.any [
    .node "assignment_expression" (.seq [.role "left" (.rule .bracketedArguments), .mark "=",
      .role "right" (.rule .expression)]),
    .rule .expression])))

/-- An operand behind an operator, where expressions that go on to the right may stand as well. -/
def operand (level : Rule) : Form :=
  .any [.rule .rightward, .rule level]

/-- Assignments, functions and others that take in all that follows. -/
def rightward : Form :=
  .any [
    .rule .lambda,
    .rule .query,
    .node "throw_expression" (.seq [.word "throw", .rule .expression]),
    .node "ref_expression" (.seq [.word "ref", .rule .expression]),
    .rule .assignment]

def choiceSuffix : Suffix Rule :=
  .mk "conditional_expression" "condition"
    (.seq [.mark "?", .role "consequence" (.rule .expression), .mark ":",
      .role "alternative" (.rule .expression)])

def expression : Form :=
  .any [
    .rule .rightward,
    .rule .accessed,
    .fold (.rule .coalescing) [choiceSuffix],
    .rule .initializer]

def assignmentOperator : Form :=
  .any [
    .marks ["=", "+=", "-=", "*=", "/=", "%=", "&=", "|=", "^=", "<<=", "??="],
    joined [">", ">="], joined [">", ">", ">="]]

def assignment : Form :=
  .node "assignment_expression" (.seq [.role "left" (.rule .target),
    .role "operator" assignmentOperator, .role "right" (.rule .expression)])

def lambdaModifiers : Form := .many (.oneOf ["static", "async"] "modifier")

def lambda : Form :=
  .node "lambda_expression" (.seq [attributes, lambdaModifiers,
    .any [
      .role "parameters" (.name expressionWords "implicit_parameter"),
      .seq [.opt (.role "type" (.rule .type)), .role "parameters" (.rule .parameterList)]],
    .mark "=>", .role "body" (.any [.rule .block, .rule .expression])])

def queryVariable : Form :=
  .any [.role "name" newName, .seq [.role "type" (.rule .type), .role "name" newName]]

def fromClause : Form :=
  .node "from_clause" (.seq [.word "from", queryVariable, .word "in", .rule .expression])

def query : Form :=
  .node "query_expression" (.seq [fromClause, .rule .queryBody])

def queryBody : Form :=
  let value : Form := .rule .expression
  let clause : Form := .any [
    fromClause,
    .node "let_clause" (.seq [.word "let", newName, .mark "=", value]),
    .node "where_clause" (.seq [.word "where", value]),
    .node "join_clause" (.seq [.word "join", queryVariable, .word "in", value, .word "on", value,
      .word "equals", value, .opt (.node "join_into_clause" (.seq [.word "into", newName]))]),
    .node "order_by_clause" (.seq [.word "orderby",
      listOf (.seq [value, .opt (.words ["ascending", "descending"])])])]
  .seq [.many clause,
    .any [
      .node "select_clause" (.seq [.word "select", value]),
      .node "group_clause" (.seq [.word "group", value, .word "by", value])],
    .opt (.seq [.word "into", newName, .rule .queryBody])]

def binarySuffix (operator : Form) (next : Rule) : Suffix Rule :=
  .mk "binary_expression" "left"
    (.seq [.role "operator" operator, .role "right" (operand next)])

def productSuffix : Suffix Rule := binarySuffix (.marks ["*", "/", "%"]) .matched

def sumSuffix : Suffix Rule := binarySuffix (.marks ["+", "-"]) .product

def shiftSuffix : Suffix Rule :=
  binarySuffix (.any [.mark "<<", joined [">", ">", ">"], joined [">", ">"]]) .sum

def relationSuffixes : List (Suffix Rule) :=
  [.mk "is_expression" "left" (.seq [.role "operator" (.word "is"), .role "right" (.rule .type)]),
    .mk "is_pattern_expression" "expression"
      (.seq [.word "is", .role "pattern" (.rule .patternOr)]),
    .mk "as_expression" "left" (.seq [.role "operator" (.word "as"), .role "right" (.rule .type)]),
    binarySuffix (.marks ["<", ">", "<=", ">="]) .shift]

def equalitySuffix : Suffix Rule := binarySuffix (.marks ["==", "!="]) .relation

def bitAndSuffix : Suffix Rule := binarySuffix (.mark "&") .equality

def bitXorSuffix : Suffix Rule := binarySuffix (.mark "^") .bitAnd

def bitOrSuffix : Suffix Rule := binarySuffix (.mark "|") .bitXor

def logicalAndSuffix : Suffix Rule := binarySuffix (.mark "&&") .bitOr

def logicalOrSuffix : Suffix Rule := binarySuffix (.mark "||") .logicalAnd

/-- This operator alone takes in others of its kind on its right. -/
def coalescingSuffix : Suffix Rule := binarySuffix (.mark "??") .coalescing

def rangeEnd : Form := .seq [.mark "..", .opt (operand .range)]

def rangeSuffix : Suffix Rule := .mk "range_expression" none rangeEnd

def range : Form :=
  .any [.fold (.rule .unary) [rangeSuffix], .node "range_expression" rangeEnd]

def whenClause : Form :=
  .node "when_clause" (.seq [.word "when", .rule .expression])

def wholePattern : Form :=
  .any [.rule .patternOr, .node "constant_pattern" (.rule .coalescing)]

def switchArm : Form :=
  .node "switch_expression_arm"
    (.seq [wholePattern, .opt whenClause, .mark "=>", .rule .expression])

def matchSuffixes : List (Suffix Rule) :=
  [.mk "switch_expression" none (.seq [.word "switch", inBraces (openList (.rule .switchArm))]),
    .mk "with_expression" none (.seq [.word "with", inBraces (openList (.node "with_initializer"
      (.seq [anyName, .mark "=", .rule .expression])))])]

def suffixes : List (Suffix Rule) :=
  [.mk "member_access_expression" "expression" (.seq [.marks [".", "->"], memberName]),
    .mk "invocation_expression" "function" (.role "arguments" (.rule .argumentList)),
    .mk "element_access_expression" "expression" (.role "subscript" (.rule .bracketedArguments)),
    .mk "postfix_unary_expression" none (.marks ["++", "--", "!"])]

def access : Form :=
  .seq [.mark "?", .any [
    .node "member_binding_expression" (.seq [.mark ".", memberName]),
    .rule .bracketedArguments]]

def accessOf (level : Rule) : Form :=
  .node "conditional_access_expression" (.seq [.role "condition" (.rule level), access])

def accessSuffix : Suffix Rule := .mk "conditional_access_expression" "condition" access

/-- The question mark binds weaker than all operators on its left but a choice, while what it gives
is an operand of those on its right. -/
def accessed : Form :=
  .fold (accessOf .coalescing)
    (accessSuffix :: suffixes ++ matchSuffixes ++
      [rangeSuffix, productSuffix, sumSuffix, shiftSuffix] ++ relationSuffixes ++
      [equalitySuffix, bitAndSuffix, bitXorSuffix, bitOrSuffix, logicalAndSuffix, logicalOrSuffix,
        coalescingSuffix, choiceSuffix])

def target : Form :=
  let places : List String := ["member_access_expression", "element_access_expression"]
  .any [
    .only (places ++ ["identifier", "generic_name", "tuple_expression", "this_expression",
      "prefix_unary_expression"]) (.rule .suffixed),
    .only places (.fold (accessOf .suffixed) (accessSuffix :: suffixes)),
    .node "parenthesized_expression" (inParens (.rule .target))]

/-- What a pointer points to. The pointer itself stands in a place that could be assigned to. -/
def indirection : Form :=
  .node "prefix_unary_expression" (.seq [.mark "*", .rule .target])

def castOperand : Form :=
  .any [
    .seq [without ["as", "is", "switch"], anyName],
    .tokenOf .integer, .tokenOf .real, .tokenOf .character, .tokenOf .string,
    .tokenOf .verbatimString, .tokenOf .rawString, .tokenOf .textOpen,
    .marks ["(", "!", "~", "+", "-", "*", "&", "&&", "^", "++", "--", "#if"]]

/-- Behind a name in parentheses, a list in brackets selects an element, and two points begin the end
of a range. -/
def cast : Form :=
  let head : Form := .seq [.mark "(", .role "type" (.rule .type), .mark ")"]
  .any [
    .node "cast_expression" (.seq [head, .ahead castOperand, .role "value" (operand .unary)]),
    .node "cast_expression" (.seq [.notAhead (inParens (.rule .qualifiedName)), head,
      .ahead (.marks ["[", ".."]), .role "value" (operand .range)])]

/-- Two address signs in a row are one token elsewhere. -/
def prefixed : Form :=
  .node "prefix_unary_expression"
    (.seq [.marks ["++", "--", "+", "-", "!", "~", "^", "&", "&&"], operand .unary])

def awaited : Form :=
  .node "await_expression" (.seq [.word "await", operand .unary])

def unary : Form :=
  .any [.rule .cast, .rule .prefixed, .rule .awaited, .rule .suffixed]

def creation : Form :=
  let filling : Form := .opt (.role "initializer" (.rule .initializer))
  .any [
    .node "implicit_array_creation_expression"
      (.seq [.word "new", inSquares (.many (.mark ",")), .rule .initializer]),
    .node "anonymous_object_creation_expression"
      (.seq [.word "new", inBraces (openList (.rule .expression))]),
    .node "array_creation_expression"
      (.seq [.word "new", .only ["array_type"] (.role "type" (.rule .type)), filling]),
    .node "object_creation_expression" (.seq [.word "new", .role "type" (.rule .type),
      .opt (.role "arguments" (.rule .argumentList)), filling]),
    .node "implicit_object_creation_expression"
      (.seq [.word "new", .rule .argumentList, filling])]

def stackAllocation : Form :=
  .any [
    .node "implicit_stackalloc_expression"
      (.seq [.word "stackalloc", .mark "[", .mark "]", .rule .initializer]),
    .node "stackalloc_expression"
      (.seq [.word "stackalloc", .role "type" (.rule .type), .opt (.rule .initializer)])]

def interpolated : Form :=
  let hole : Form := .node "interpolation" (.seq [.tokenOf .holeOpen, .rule .expression,
    .opt (.node "interpolation_alignment_clause" (.seq [.mark ",", .rule .expression])),
    .opt (.leaf .format "interpolation_format_clause"), .tokenOf .holeClose])
  .node "interpolated_string_expression" (.seq [.tokenOf .textOpen,
    .most (.any [.leaf .textPart "string_content", hole]), .tokenOf .textClose])

def literal : Form :=
  .any [.leaf .integer "integer_literal", .leaf .real "real_literal",
    .leaf .character "character_literal", .leaf .string "string_literal",
    .leaf .verbatimString "verbatim_string_literal", .leaf .rawString "raw_string_literal",
    .oneOf ["true", "false"] "boolean_literal", .oneOf ["null"] "null_literal"]

def tuple : Form :=
  .node "tuple_expression" (inParens
    (.seq [.rule .argument, .mark ",", listOf (.rule .argument)]))

def parenthesized : Form :=
  .node "parenthesized_expression" (inParens (.rule .expression))

def anonymousMethod : Form :=
  .node "anonymous_method_expression" (.seq [lambdaModifiers, .word "delegate",
    .opt (.role "parameters" (.rule .parameterList)), .rule .block])

def collection : Form :=
  let element : Form := .any [
    .node "spread_element" (.seq [.mark "..", .rule .expression]),
    .node "expression_element" (.rule .expression)]
  .node "collection_expression" (inSquares (openList (.node "collection_element" element)))

def primary : Form :=
  let ofType (word : String) : Form := .seq [.word word, inParens (.role "type" (.rule .type))]
  let ofValue (word : String) : Form := .seq [.word word, inParens (.rule .expression)]
  .any [
    literal, .rule .interpolated, tuple, parenthesized, .rule .creation,
    .oneOf ["this"] "this_expression",
    .oneOf ["base"] "base_expression",
    .node "typeof_expression" (ofType "typeof"),
    .node "sizeof_expression" (ofType "sizeof"),
    .node "default_expression" (ofType "default"),
    .node "default_expression" (.seq [.word "default", .notAhead (.mark "(")]),
    .node "checked_expression" (.any [ofValue "checked", ofValue "unchecked"]),
    .node "makeref_expression" (ofValue "__makeref"),
    .node "reftype_expression" (ofValue "__reftype"),
    .node "refvalue_expression" (.seq [.word "__refvalue",
      inParens (.seq [.rule .expression, .mark ",", .rule .type])]),
    stackAllocation, anonymousMethod,
    .seq [predefined, .ahead (.marks [".", "->"])],
    aliasName valueName,
    nameWithArguments valueName,
    collection, indirection,
    sectionOfOne (.rule .expression)]

def designation : Form :=
  .any [.oneOf ["_"] "discard",
    .role "name" (nameBut ["and", "or", "is", "as", "switch", "with", "in"]), .rule .tuplePattern]

def patternOr : Form :=
  .fold (.rule .patternAnd) [.mk "or_pattern" "left"
    (.seq [.role "operator" (.word "or"), .role "right" (.rule .patternAnd)])]

def patternAnd : Form :=
  .fold (.rule .patternNot) [.mk "and_pattern" "left"
    (.seq [.role "operator" (.word "and"), .role "right" (.rule .patternNot)])]

def patternNot : Form :=
  .any [.node "negated_pattern" (.seq [.word "not", .rule .patternNot]),
    .seq [without ["not"], .rule .patternPrimary]]

def subpattern : Form :=
  .node "subpattern" (.seq [.opt (.seq [.rule .coalescing, .mark ":"]), wholePattern])

def propertyPattern : Form :=
  .node "property_pattern_clause" (inBraces (openList subpattern))

/-- Patterns of the parts of a value, none or at least two. -/
def positionalPattern : Form :=
  .node "positional_pattern_clause"
    (inParens (.opt (.seq [subpattern, .mark ",", listOf subpattern])))

def patternPrimary : Form :=
  .any [
    .node "var_pattern" (.seq [.word "var", designation]),
    .node "relational_pattern" (.seq [.marks ["<", ">", "<=", ">="], .rule .shift]),
    .node "list_pattern" (.seq [inSquares (openList (.any [
      .node "slice_pattern" (.seq [.mark "..", .opt (.rule .patternOr)]), wholePattern])),
      .opt designation]),
    .node "recursive_pattern" (.seq [.opt (.role "type" (.rule .type)),
      .any [.seq [positionalPattern, .opt propertyPattern], propertyPattern], .opt designation]),
    .node "declaration_pattern" (.seq [.role "type" (.rule .type), designation]),
    .node "parenthesized_pattern" (inParens wholePattern),
    .oneOf ["_"] "discard",
    .node "constant_pattern" (.rule .shift),
    .node "type_pattern" (.role "type" (.rule .type))]

end CSharpAudit.CSharp
