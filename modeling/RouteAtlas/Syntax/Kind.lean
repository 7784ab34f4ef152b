/-!
# Kinds of syntax nodes

The kinds of JavaScript and TypeScript syntax that the analysis tells apart. Everything else, and
every punctuation mark and keyword, is `other`.
-/

namespace RouteAtlas.Syntax

/-- The kind of a syntax node. -/
inductive Kind where
  | program
  | importStatement | importClause | namedImports | importSpecifier | namespaceImport
  | exportStatement | exportClause | exportSpecifier
  | lexicalDeclaration | variableDeclaration | variableDeclarator
  | functionDeclaration | generatorFunctionDeclaration | functionExpression | generatorFunction
  | arrowFunction | methodDefinition
  | formalParameters | requiredParameter | optionalParameter
  | assignmentPattern | objectPattern | pairPattern | shorthandPropertyIdentifierPattern
  | objectAssignmentPattern | restPattern
  | object | pair | shorthandPropertyIdentifier
  | callExpression | arguments | memberExpression | subscriptExpression | assignmentExpression
  | binaryExpression | unaryExpression | parenthesizedExpression | asExpression | nonNullExpression
  | satisfiesExpression | awaitExpression
  | identifier | propertyIdentifier
  | string | templateString | templateSubstitution | number | trueLiteral | falseLiteral | array
  | statementBlock | expressionStatement
  | comment
  | other
deriving DecidableEq, Hashable, Repr, Inhabited

namespace Kind

/-- The grammar's name of a kind. -/
def name : Kind → String
  | program => "program"
  | importStatement => "import_statement"
  | importClause => "import_clause"
  | namedImports => "named_imports"
  | importSpecifier => "import_specifier"
  | namespaceImport => "namespace_import"
  | exportStatement => "export_statement"
  | exportClause => "export_clause"
  | exportSpecifier => "export_specifier"
  | lexicalDeclaration => "lexical_declaration"
  | variableDeclaration => "variable_declaration"
  | variableDeclarator => "variable_declarator"
  | functionDeclaration => "function_declaration"
  | generatorFunctionDeclaration => "generator_function_declaration"
  | functionExpression => "function_expression"
  | generatorFunction => "generator_function"
  | arrowFunction => "arrow_function"
  | methodDefinition => "method_definition"
  | formalParameters => "formal_parameters"
  | requiredParameter => "required_parameter"
  | optionalParameter => "optional_parameter"
  | assignmentPattern => "assignment_pattern"
  | objectPattern => "object_pattern"
  | pairPattern => "pair_pattern"
  | shorthandPropertyIdentifierPattern => "shorthand_property_identifier_pattern"
  | objectAssignmentPattern => "object_assignment_pattern"
  | restPattern => "rest_pattern"
  | object => "object"
  | pair => "pair"
  | shorthandPropertyIdentifier => "shorthand_property_identifier"
  | callExpression => "call_expression"
  | arguments => "arguments"
  | memberExpression => "member_expression"
  | subscriptExpression => "subscript_expression"
  | assignmentExpression => "assignment_expression"
  | binaryExpression => "binary_expression"
  | unaryExpression => "unary_expression"
  | parenthesizedExpression => "parenthesized_expression"
  | asExpression => "as_expression"
  | nonNullExpression => "non_null_expression"
  | satisfiesExpression => "satisfies_expression"
  | awaitExpression => "await_expression"
  | identifier => "identifier"
  | propertyIdentifier => "property_identifier"
  | string => "string"
  | templateString => "template_string"
  | templateSubstitution => "template_substitution"
  | number => "number"
  | trueLiteral => "true"
  | falseLiteral => "false"
  | array => "array"
  | statementBlock => "statement_block"
  | expressionStatement => "expression_statement"
  | comment => "comment"
  | other => "other"

/-- Every kind that has a name of its own. -/
def named : List Kind :=
  [program, importStatement, importClause, namedImports, importSpecifier, namespaceImport,
    exportStatement, exportClause, exportSpecifier, lexicalDeclaration, variableDeclaration,
    variableDeclarator, functionDeclaration, generatorFunctionDeclaration, functionExpression,
    generatorFunction, arrowFunction, methodDefinition, formalParameters, requiredParameter,
    optionalParameter, assignmentPattern, objectPattern, pairPattern,
    shorthandPropertyIdentifierPattern, objectAssignmentPattern, restPattern, object, pair,
    shorthandPropertyIdentifier, callExpression, arguments, memberExpression, subscriptExpression,
    assignmentExpression, binaryExpression, unaryExpression, parenthesizedExpression, asExpression,
    nonNullExpression, satisfiesExpression, awaitExpression, identifier, propertyIdentifier, string,
    templateString, templateSubstitution, number, trueLiteral, falseLiteral, array, statementBlock,
    expressionStatement, comment]

/-- The kind with the given grammar name. Some grammars write `function` for a function
expression. -/
def ofName (text : String) : Kind :=
  if text == "function" then functionExpression
  else (named.find? (·.name == text)).getD other

/-- The kinds that introduce a body to be called. -/
def isFunction : Kind → Bool
  | functionDeclaration | generatorFunctionDeclaration | functionExpression | generatorFunction
  | arrowFunction | methodDefinition => true
  | _ => false

/-- The kinds that wrap an expression and do not change its value. -/
def isTransparent : Kind → Bool
  | parenthesizedExpression | asExpression | nonNullExpression | satisfiesExpression => true
  | _ => false

/-- `isFunction` holds of no kind that wraps an expression. -/
theorem not_isTransparent_of_isFunction {k : Kind} (h : k.isFunction = true) :
    k.isTransparent = false := by
  cases k <;> first | rfl | exact nomatch h

end Kind

end RouteAtlas.Syntax
