import CSharpAudit.CSharp.Declarations

/-!
The rules and what they stand for.
-/

namespace CSharpAudit.CSharp

/-- What each rule stands for. -/
def production : Rule → Rule.Form
  | .sectionTest => sectionTest
  | .typeArguments => typeArguments
  | .simpleName => simpleName
  | .qualifiedName => qualifiedName
  | .baseType => baseType
  | .type => type
  | .attributeList => attributeList
  | .parameter => parameter
  | .parameterList => parameterList
  | .argumentList => argumentList
  | .bracketedArguments => bracketedArguments
  | .tuplePattern => tuplePattern
  | .initializer => initializer
  | .block => block
  | .interpolated => interpolated
  | .creation => creation
  | .primary => primary
  | .suffixed => .fold (.rule .primary) suffixes
  | .cast => cast
  | .prefixed => prefixed
  | .awaited => awaited
  | .unary => unary
  | .range => range
  | .matched => .fold (.rule .range) matchSuffixes
  | .product => .fold (.rule .matched) [productSuffix]
  | .sum => .fold (.rule .product) [sumSuffix]
  | .shift => .fold (.rule .sum) [shiftSuffix]
  | .relation => .fold (.rule .shift) relationSuffixes
  | .equality => .fold (.rule .relation) [equalitySuffix]
  | .bitAnd => .fold (.rule .equality) [bitAndSuffix]
  | .bitXor => .fold (.rule .bitAnd) [bitXorSuffix]
  | .bitOr => .fold (.rule .bitXor) [bitOrSuffix]
  | .logicalAnd => .fold (.rule .bitOr) [logicalAndSuffix]
  | .logicalOr => .fold (.rule .logicalAnd) [logicalOrSuffix]
  | .coalescing => .fold (.rule .logicalOr) [coalescingSuffix]
  | .accessed => accessed
  | .target => target
  | .assignment => assignment
  | .lambda => lambda
  | .query => query
  | .queryBody => queryBody
  | .rightward => rightward
  | .expression => expression
  | .argument => argument
  | .patternPrimary => patternPrimary
  | .patternNot => patternNot
  | .patternAnd => patternAnd
  | .patternOr => patternOr
  | .switchArm => switchArm
  | .variableDeclaration => variableDeclaration
  | .statement => statement
  | .typeDeclaration => typeDeclaration
  | .member => member
  | .declarationList => declarationList
  | .unitPart => unitPart
  | .unitItem => unitItem
  | .unit => unit

namespace Rule

def all : List Rule :=
  [.sectionTest, .typeArguments, .simpleName, .qualifiedName, .baseType, .type, .attributeList,
    .parameter, .parameterList, .argumentList, .bracketedArguments, .tuplePattern, .initializer,
    .block, .interpolated, .creation, .primary, .suffixed, .cast, .prefixed, .awaited, .unary,
    .range, .matched, .product, .sum, .shift, .relation, .equality, .bitAnd, .bitXor, .bitOr,
    .logicalAnd, .logicalOr, .coalescing, .accessed, .target, .assignment, .lambda, .query,
    .queryBody, .rightward, .expression, .argument, .patternPrimary, .patternNot, .patternAnd,
    .patternOr, .switchArm, .variableDeclaration, .statement, .typeDeclaration, .member,
    .declarationList, .unitPart, .unitItem, .unit]

def number (r : Rule) : Nat := r.ctorIdx

end Rule

end CSharpAudit.CSharp
