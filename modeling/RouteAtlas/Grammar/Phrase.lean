import RouteAtlas.Syntax.Kind

/-!
# Phrases

The phrases that the grammars of JavaScript and TypeScript are made of, each with a rule of its own
in one grammar or in both. Most phrases are nodes of the syntax tree. The others only gather
alternatives or parts that several rules share; what they hold stands in the tree without them.
-/

namespace RouteAtlas.Grammar

open Syntax

/-- A phrase of the grammars. -/
inductive Phrase where
  -- Programs, imports and exports
  | program | hashBang | exportStatement | namespaceExport | exportClause | exportSpecifier
  | exportName | declaration | importWord | importStatement | importClause | fromClause
  | namespaceImport | namedImports | importSpecifier | importAttribute
  -- Statements
  | statement | expressionStatement | variableDeclaration | lexicalDeclaration | variableDeclarator
  | statementBlock | elseClause | ifStatement | switchStatement | forStatement | forInStatement
  | forHeader | whileStatement | doStatement | tryStatement | withStatement | breakStatement
  | continueStatement | debuggerStatement | returnStatement | throwStatement | emptyStatement
  | labeledStatement | switchBody | switchCase | switchDefault | catchClause | finallyClause
  -- Expressions, objects and arrays
  | parenthesizedExpression | expressions | expression | primaryExpression | yieldExpression
  | object | objectPattern | assignmentPattern | objectAssignmentPattern | array | arrayPattern
  -- Markup
  | markup | markupElement | characterReference | markupExpression | markupChild | openingTag
  | dashedIdentifier | markupIdentifier | nestedIdentifier | namespacedName | elementName | closingTag
  | selfClosingElement | elementAttribute | attributeName | markupAttribute | attributeString
  | doubleAttributeText | singleAttributeText | attributeValue
  -- Classes and functions
  | classExpression | classDeclaration | classHeritage | functionExpression | functionDeclaration
  | generatorFunction | generatorFunctionDeclaration | arrowFunction | signature | formalParameter
  -- Operators
  | optionalChain | callExpression | newExpression | awaitExpression | memberExpression
  | subscriptExpression | assignable | assignmentExpression | updatable | augmentedAssignment
  | initializer | destructuringPattern | spreadElement | ternaryExpression | binaryExpression
  | unaryExpression | updateExpression | sequenceExpression
  -- Literals and names
  | string | doubleStringText | singleStringText | escapeSequence | comment | templateString
  | templateSubstitution | regex | regexPattern | regexFlags | number | plainName | identifier
  | privateIdentifier | metaProperty | thisValue | superValue | trueLiteral | falseLiteral
  | nullLiteral | undefinedLiteral
  -- Parts of calls, classes and objects
  | arguments | decorator | decoratorMember | decoratorCall | classBody | fieldDefinition
  | formalParameters | classStaticBlock | pattern | restPattern | methodDefinition | pair | pairPattern
  | propertyName | computedPropertyName | softKeyword | semicolon
  -- Typed declarations and expressions
  | fieldMember | tagStart | importName | nonNullExpression | methodSignature
  | abstractMethodSignature | functionSignature | decoratorGroup | typeAssertion | asExpression
  | satisfiesExpression | instantiationExpression | importRequireClause | extendsClause | extendsItem
  | implementsClause | ambientDeclaration | abstractClassDeclaration | moduleDeclaration
  | namespaceDeclaration | moduleBody | importAlias | nestedTypeIdentifier | interfaceDeclaration
  | extendsTypeClause | enumDeclaration | enumBody | enumAssignment | typeAliasDeclaration
  | accessibilityModifier | overrideModifier | requiredParameter | optionalParameter | parameterName
  -- Types
  | omittingClause | addingClause | optingClause | typeClause | importedMember | importedCall
  | asserts | assertsClause | typeExpression | tupleParameter | optionalTupleParameter | optionalType
  | restType | tupleMember | constructorType | primaryType | templateType | templateLiteralType
  | inferType | conditionalType | genericType | typePredicate | predicateClause | queriedMember
  | queriedSubscript | queriedCall | queriedInstantiation | typeQuery | indexTypeQuery | lookupType
  | mappedTypeClause | literalType | signedNumber | starType | maybeType | parenthesizedType
  | predefinedType | typeArguments | objectType | callSignature | propertySignature | typeParameters
  | typeParameter | defaultType | constraint | constructSignature | indexSignature | arrayType
  | tupleType | readonlyType | unionType | intersectionType | functionType | typeName
deriving DecidableEq, Hashable, Repr, Inhabited

namespace Phrase

/-- The kind of node that a phrase is in the syntax tree, or nothing if its parts stand there
without it. -/
def kind? : Phrase → Option Kind
  | exportName | declaration | fromClause | statement | forHeader | expressions | expression
  | primaryExpression | markup | markupChild | markupIdentifier | elementName | elementAttribute
  | attributeName | attributeString | attributeValue | signature | formalParameter | assignable
  | updatable | initializer | destructuringPattern | plainName | pattern | propertyName | softKeyword
  | semicolon | tagStart | importName | extendsItem | moduleBody | parameterName | importedMember
  | importedCall | typeExpression | tupleMember | primaryType | queriedMember | queriedSubscript
  | queriedCall | queriedInstantiation | signedNumber | typeName => none
  | program => some .program
  | exportStatement => some .exportStatement
  | exportClause => some .exportClause
  | exportSpecifier => some .exportSpecifier
  | importStatement => some .importStatement
  | importClause => some .importClause
  | namespaceImport => some .namespaceImport
  | namedImports => some .namedImports
  | importSpecifier => some .importSpecifier
  | expressionStatement => some .expressionStatement
  | variableDeclaration => some .variableDeclaration
  | lexicalDeclaration => some .lexicalDeclaration
  | variableDeclarator => some .variableDeclarator
  | statementBlock => some .statementBlock
  | parenthesizedExpression => some .parenthesizedExpression
  | object => some .object
  | objectPattern => some .objectPattern
  | assignmentPattern => some .assignmentPattern
  | objectAssignmentPattern => some .objectAssignmentPattern
  | array => some .array
  | functionExpression => some .functionExpression
  | functionDeclaration => some .functionDeclaration
  | generatorFunction => some .generatorFunction
  | generatorFunctionDeclaration => some .generatorFunctionDeclaration
  | arrowFunction => some .arrowFunction
  | callExpression => some .callExpression
  | awaitExpression => some .awaitExpression
  | memberExpression => some .memberExpression
  | subscriptExpression => some .subscriptExpression
  | assignmentExpression => some .assignmentExpression
  | binaryExpression => some .binaryExpression
  | unaryExpression => some .unaryExpression
  | string => some .string
  | comment => some .comment
  | templateString => some .templateString
  | templateSubstitution => some .templateSubstitution
  | number => some .number
  | identifier => some .identifier
  | trueLiteral => some .trueLiteral
  | falseLiteral => some .falseLiteral
  | arguments => some .arguments
  | formalParameters => some .formalParameters
  | restPattern => some .restPattern
  | methodDefinition => some .methodDefinition
  | pair => some .pair
  | pairPattern => some .pairPattern
  | nonNullExpression => some .nonNullExpression
  | asExpression => some .asExpression
  | satisfiesExpression => some .satisfiesExpression
  | requiredParameter => some .requiredParameter
  | optionalParameter => some .optionalParameter
  | _ => some .other

end Phrase

end RouteAtlas.Grammar
