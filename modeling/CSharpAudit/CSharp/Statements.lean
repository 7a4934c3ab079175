import CSharpAudit.CSharp.Expressions

/-!
Statements.
-/

namespace CSharpAudit.CSharp

open Rule (Form)

def block : Form :=
  .node "block" (inBraces (.most (.rule .statement)))

def condition : Form := inParens (.role "condition" (.rule .expression))

def body : Form := .role "body" (.rule .statement)

/-- An `else` always belongs to the nearest `if` that lacks one. -/
def ifStatement : Form :=
  .node "if_statement" (.seq [.word "if", condition, .role "consequence" (.rule .statement),
    .any [.seq [.word "else", .role "alternative" (.rule .statement)], without ["else"]]])

def loops : Form :=
  .any [
    .node "while_statement" (.seq [.word "while", condition, body]),
    .node "do_statement" (.seq [.word "do", body, .word "while", condition, .mark ";"]),
    .node "for_statement" (.seq [.word "for", inParens (.seq [
      .opt (.any [.role "initializer" (.rule .variableDeclaration),
        listOf (.role "initializer" (.rule .expression))]),
      .mark ";", .opt (.role "condition" (.rule .expression)),
      .mark ";", optionalList (.role "update" (.rule .expression))]), body]),
    .node "foreach_statement" (.seq [.opt (.word "await"), .word "foreach", inParens (.seq [
      .any [
        .seq [.role "type" (.any [implicitType, .rule .type]),
          .role "left" (.any [newName, .rule .tuplePattern])],
        .role "left" (.rule .expression)],
      .word "in", .role "right" (.rule .expression)]), body])]

def switchStatement : Form :=
  let label : Form := .any [
    .seq [.word "case", .any [wholePattern, .rule .expression], .opt whenClause, .mark ":"],
    .seq [.word "default", .mark ":"]]
  .node "switch_statement" (.seq [.word "switch",
    .any [.role "value" tuple, inParens (.role "value" (.rule .expression))],
    .role "body" (.node "switch_body" (inBraces (.most (.node "switch_section"
      (.seq [label, .most (.seq [without ["case"], .rule .statement])])))))])

def tryStatement : Form :=
  .node "try_statement" (.seq [.word "try", .role "body" (.rule .block),
    .most (.node "catch_clause" (.seq [.word "catch",
      .many (.any [
        .node "catch_declaration"
          (inParens (.seq [.role "type" (.rule .type), .opt (.role "name" newName)])),
        .node "catch_filter_clause" (.seq [.word "when", inParens (.rule .expression)])]),
      .role "body" (.rule .block)])),
    .opt (.node "finally_clause" (.seq [.word "finally", .rule .block])),
    without ["catch", "finally"]])

def scopes : Form :=
  .any [
    .node "using_statement" (.seq [.opt (.word "await"), .word "using",
      inParens (.any [heldVariables, .rule .expression]), body]),
    .node "lock_statement" (.seq [.word "lock", inParens (.rule .expression), .rule .statement]),
    .node "fixed_statement" (.seq [.word "fixed", inParens (.rule .variableDeclaration), body]),
    .node "checked_statement" (.seq [.words ["checked", "unchecked"], .rule .block]),
    .node "unsafe_statement" (.seq [.word "unsafe", .rule .block])]

def jumps : Form :=
  let value : Form := .opt (.rule .expression)
  .any [
    .node "return_statement" (.seq [.word "return", value, .mark ";"]),
    .node "throw_statement" (.seq [.word "throw", value, .mark ";"]),
    .node "break_statement" (.seq [.word "break", .mark ";"]),
    .node "continue_statement" (.seq [.word "continue", .mark ";"]),
    .node "goto_statement" (.seq [.word "goto",
      .any [.seq [.word "case", .rule .expression], .word "default",
        nameBut ["case", "default"]], .mark ";"]),
    .node "yield_statement" (.seq [.word "yield",
      .any [.seq [.word "return", .rule .expression], .word "break"], .mark ";"])]

/-- The words with which statements other than declarations begin. -/
def declarationless : Form := without (statementWords ++ valueWords)

def localFunction : Form :=
  .node "local_function_statement" (.seq [attributes, modifiers, declarationless,
    .role "type" (.rule .type), signature, functionBody])

def localDeclaration : Form :=
  .node "local_declaration_statement" (.seq [.opt (.word "await"), .opt (.word "using"), modifiers,
    declarationless, .rule .variableDeclaration, .mark ";"])

/-- Expressions that do something, and so may stand alone. -/
def actingExpression : Form :=
  .any [
    .rule .assignment,
    .only ["invocation_expression", "postfix_unary_expression", "object_creation_expression",
      "array_creation_expression"] (.rule .suffixed),
    .only ["invocation_expression", "postfix_unary_expression"] (.rule .accessed),
    .rule .prefixed,
    .rule .awaited,
    .seq [.notAhead (inParens (.rule .target)), parenthesized]]

def expressionStatement : Form :=
  .node "expression_statement"
    (.seq [without (statementWords ++ modifierWords.filter (fun w => !expressionWords.contains w)),
      actingExpression, .mark ";"])

def statement : Form :=
  .any [
    .rule .block,
    .node "empty_statement" (.mark ";"),
    sectionOf (.most (.any [.rule .unitPart, .rule .statement])),
    ifStatement, loops, switchStatement, tryStatement, scopes, jumps,
    .node "labeled_statement" (.seq [nameBut (expressionWords ++ modifierWords ++ statementWords),
      .mark ":", .rule .statement]),
    localFunction, expressionStatement, localDeclaration]

end CSharpAudit.CSharp
