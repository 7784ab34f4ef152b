import RouteAtlas.Grammar.Rule

/-!
# The grammar of JavaScript

JavaScript with markup elements among its expressions. The rules stand in the order in which their
tokens and phrases are numbered; of two readings of equal weight the one whose first difference is
the smaller number is kept.
-/

namespace RouteAtlas.Grammar.Script

open Phrase Rule Contextual

/-! ## Programs, imports and exports -/

/-- What a program, an import and an export are. -/
def moduleRules : List (Phrase × Rule) := [
  (.program, seq [opt hashBang, many statement]),
  (.hashBang, Lexeme.hashBang),
  (.exportStatement, choice [
    seq ["export",
      choice [seq ["*", fromClause], seq [namespaceExport, fromClause],
        seq [exportClause, fromClause],
        exportClause], semicolon],
    seq [many (part .decorator decorator), "export",
      choice [part .declaration declaration,
        seq ["default",
          choice [part .declaration declaration, seq [part .value expression, semicolon]]]]]]),
  (.namespaceExport, seq ["*", "as", exportName]),
  (.exportClause, seq ["\x7b", commaList exportSpecifier, opt ",", "\x7d"]),
  (.exportSpecifier, seq [part .name exportName, opt (seq ["as", part .newName exportName])]),
  (.exportName, choice [identifier, string]),
  (.declaration, choice [functionDeclaration, generatorFunctionDeclaration, classDeclaration,
    lexicalDeclaration, variableDeclaration]),
  (.importWord, "import"),
  (.importStatement, seq ["import", choice [seq [importClause, fromClause], part .source string],
    opt importAttribute, semicolon]),
  (.importClause, choice [namespaceImport, namedImports,
    seq [identifier, opt (seq [",", choice [namespaceImport, namedImports]])]]),
  (.fromClause, seq ["from", part .source string]),
  (.namespaceImport, seq ["*", "as", identifier]),
  (.namedImports, seq ["\x7b", commaList importSpecifier, opt ",", "\x7d"]),
  (.importSpecifier, choice [part .name identifier,
    seq [part .name exportName, "as", part .newName identifier]]),
  (.importAttribute, seq ["with", object])]

/-! ## Statements -/

/-- What the statements are. -/
def statementRules : List (Phrase × Rule) := [
  (.statement, choice [exportStatement, importStatement, debuggerStatement, expressionStatement,
    declaration, statementBlock, ifStatement, switchStatement, forStatement, forInStatement,
    whileStatement, doStatement, tryStatement, withStatement, breakStatement, continueStatement,
    returnStatement, throwStatement, emptyStatement, labeledStatement]),
  (.expressionStatement, seq [expressions, semicolon]),
  (.variableDeclaration, seq ["var", commaList1 variableDeclarator, semicolon]),
  (.lexicalDeclaration, seq [part .kind (choice ["let", "const"]), commaList1 variableDeclarator,
    semicolon]),
  (.variableDeclarator,
    seq [part .name (choice [identifier, destructuringPattern]), opt initializer]),
  (.statementBlock, right (seq ["\x7b", many statement, "\x7d", opt lineEnd])),
  (.elseClause, seq ["else", statement]),
  (.ifStatement, right <| seq ["if", part .condition parenthesizedExpression,
    part .consequence statement, opt (part .alternative elseClause)]),
  (.switchStatement, seq ["switch", part .value parenthesizedExpression, part .body switchBody]),
  (.forStatement, seq ["for", "(",
    choice [part .initializer (choice [lexicalDeclaration, variableDeclaration]),
      seq [part .initializer expressions, ";"], part .initializer emptyStatement],
    part .condition (choice [seq [expressions, ";"], emptyStatement]),
    part .increment (opt expressions), ")", part .body statement]),
  (.forInStatement, seq ["for", opt "await", forHeader, part .body statement]),
  (.forHeader, seq ["(",
    choice [part .left (choice [assignable, parenthesizedExpression]),
      seq [part .kind "var", part .left (choice [identifier, destructuringPattern]),
        opt initializer],
      seq [part .kind (choice ["let", "const"]),
        part .left (choice [identifier, destructuringPattern]),
        opt lineEnd]], part .operator (choice ["in", "of"]), part .right expressions, ")"]),
  (.whileStatement, seq ["while", part .condition parenthesizedExpression, part .body statement]),
  (.doStatement, right <| seq ["do", part .body statement, "while",
    part .condition parenthesizedExpression, opt semicolon]),
  (.tryStatement, seq ["try", part .body statementBlock, opt (part .handler catchClause),
    opt (part .finalizer finallyClause)]),
  (.withStatement, seq ["with", part .object parenthesizedExpression, part .body statement]),
  (.breakStatement, seq ["break", part .label (opt (asKind .other identifier)), semicolon]),
  (.continueStatement, seq ["continue", part .label (opt (asKind .other identifier)), semicolon]),
  (.debuggerStatement, seq ["debugger", semicolon]),
  (.returnStatement, seq ["return", opt expressions, semicolon]),
  (.throwStatement, seq ["throw", expressions, semicolon]),
  (.emptyStatement, ";"),
  (.labeledStatement,
    weigh (-1) <| seq [part .label (asKind .other (choice [identifier, softKeyword])),
    ":", part .body statement]),
  (.switchBody, seq ["\x7b", many (choice [switchCase, switchDefault]), "\x7d"]),
  (.switchCase, seq ["case", part .value expressions, ":", part .body (many statement)]),
  (.switchDefault, seq ["default", ":", part .body (many statement)]),
  (.catchClause, seq ["catch",
    opt (seq ["(", part .parameter (choice [identifier, destructuringPattern]), ")"]),
    part .body statementBlock]),
  (.finallyClause, seq ["finally", part .body statementBlock])]

/-! ## Expressions, objects and arrays -/

/-- What an expression, an object and an array are, and the patterns that look like them. -/
def valueRules : List (Phrase × Rule) := [
  (.parenthesizedExpression, seq ["(", expressions, ")"]),
  (.expressions, choice [expression, sequenceExpression]),
  (.expression, choice [primaryExpression, markup, assignmentExpression, augmentedAssignment,
    awaitExpression, unaryExpression, binaryExpression, ternaryExpression, updateExpression,
    newExpression, yieldExpression]),
  (.primaryExpression, choice [subscriptExpression, memberExpression, parenthesizedExpression,
    plainName, asKind .identifier softKeyword, thisValue, superValue, number, string,
      templateString,
    regex, trueLiteral, falseLiteral, nullLiteral, object, array, functionExpression, arrowFunction,
    generatorFunction, classExpression, metaProperty, callExpression]),
  (.yieldExpression, right (seq ["yield", choice [seq ["*", expression], opt expression]])),
  (.object, rank .object <| seq ["\x7b",
    commaList <| opt <| choice [pair, spreadElement, methodDefinition,
      asKind .shorthandPropertyIdentifier (choice [identifier, softKeyword])], "\x7d"]),
  (.objectPattern, rank .object <| seq ["\x7b",
    commaList <| opt <| choice [pairPattern, restPattern, objectAssignmentPattern,
      asKind .shorthandPropertyIdentifierPattern (choice [identifier, softKeyword])], "\x7d"]),
  (.assignmentPattern, seq [part .left pattern, "=", part .right expression]),
  (.objectAssignmentPattern, seq [
    part .left <| choice
      [asKind .shorthandPropertyIdentifierPattern (choice [softKeyword, identifier]),
      destructuringPattern], "=", part .right expression]),
  (.array, seq ["[", commaList (opt (choice [expression, spreadElement])), "]"]),
  (.arrayPattern, seq ["[", commaList (opt (choice [pattern, assignmentPattern])), "]"])]

/-! ## Markup -/

/-- What an element of markup is. -/
def markupRules : List (Phrase × Rule) := [
  (.markup, choice [markupElement, selfClosingElement]),
  (.markupElement, seq [part .opening openingTag, many markupChild, part .closing closingTag]),
  (.characterReference, Lexeme.characterReference),
  (.markupExpression, seq ["\x7b", opt (choice [expression, sequenceExpression, spreadElement]),
    "\x7d"]),
  (.markupChild, choice [markupText, characterReference, markup, markupExpression]),
  (.openingTag, weigh (-1) <| seq ["<",
    opt (seq [part .name elementName, many (part .attribute elementAttribute)]), ">"]),
  (.dashedIdentifier, Lexeme.dashedName),
  (.markupIdentifier, choice [asKind .identifier dashedIdentifier, identifier]),
  (.nestedIdentifier, rank .member <| seq [
    part .object (choice [identifier, asKind .memberExpression nestedIdentifier]), ".",
    part .property (asKind .propertyIdentifier identifier)]),
  (.namespacedName, seq [markupIdentifier, ":", markupIdentifier]),
  (.elementName,
    choice [markupIdentifier, asKind .memberExpression nestedIdentifier, namespacedName]),
  (.closingTag, seq ["</", opt (part .name elementName), ">"]),
  (.selfClosingElement, seq ["<", part .name elementName, many (part .attribute elementAttribute),
    "/>"]),
  (.elementAttribute, choice [markupAttribute, markupExpression]),
  (.attributeName, choice [asKind .propertyIdentifier markupIdentifier, namespacedName]),
  (.markupAttribute, seq [attributeName, opt (seq ["=", attributeValue])]),
  (.attributeString, choice [
    seq ["\x22", many (choice [asKind .other doubleAttributeText, characterReference]), "\x22"],
    seq ["\x27", many (choice [asKind .other singleAttributeText, characterReference]), "\x27"]]),
  (.doubleAttributeText, Lexeme.doubleAttributeText),
  (.singleAttributeText, Lexeme.singleAttributeText),
  (.attributeValue, choice [asKind .string attributeString, markupExpression, markup])]

/-! ## Classes and functions -/

/-- What a class and a function are. -/
def functionRules : List (Phrase × Rule) := [
  (.classExpression, rank .literal <| seq [many (part .decorator decorator), "class",
    part .name (opt identifier), opt classHeritage, part .body classBody]),
  (.classDeclaration, rank .declaration <| seq [many (part .decorator decorator), "class",
    part .name identifier, opt classHeritage, part .body classBody, opt lineEnd]),
  (.classHeritage, seq ["extends", expression]),
  (.functionExpression, rank .literal <| seq [opt "async", "function", part .name (opt identifier),
    signature, part .body statementBlock]),
  (.functionDeclaration,
    rightAt .declaration <| seq [opt "async", "function", part .name identifier,
    signature, part .body statementBlock, opt lineEnd]),
  (.generatorFunction,
    rank .literal <| seq [opt "async", "function", "*", part .name (opt identifier),
    signature, part .body statementBlock]),
  (.generatorFunctionDeclaration, rightAt .declaration <| seq [opt "async", "function", "*",
    part .name identifier, signature, part .body statementBlock, opt lineEnd]),
  (.arrowFunction, seq [opt "async",
    choice [part .parameter (choice [asKind .identifier softKeyword, identifier]), signature], "=>",
    part .body (choice [expression, statementBlock])]),
  (.signature, part .parameters formalParameters),
  (.formalParameter, choice [pattern, assignmentPattern])]

/-! ## Operators -/

/-- The operators that stand between two operands, with their levels and the sides to which they
group. -/
def operators : List (Level × Side × String) :=
  [(.logicalAnd, .left, "&&"), (.logicalOr, .left, "||"), (.shift, .left, ">>"),
    (.shift, .left, ">>>"), (.shift, .left, "<<"), (.bitAnd, .left, "&"), (.bitXor, .left, "^"),
    (.bitOr, .left, "|"), (.sum, .left, "+"), (.sum, .left, "-"), (.product, .left, "*"),
    (.product, .left, "/"), (.product, .left, "%"), (.power, .right, "**"), (.relation, .left, "<"),
    (.relation, .left, "<="), (.equality, .left, "=="), (.equality, .left, "==="),
    (.equality, .left, "!="), (.equality, .left, "!=="), (.relation, .left, ">="),
    (.relation, .left, ">"), (.ternary, .left, "??"), (.relation, .left, "instanceof"),
    (.relation, .left, "in")]

/-- An operator between two operands. A private name may be asked for in an object. -/
def operation (level : Level) (side : Side) (sign : String) : Rule :=
  let first : Rule := if sign == "in" then choice [expression, privateIdentifier] else expression
  rank level <| sided side <| seq [part .left first, part .operator sign, part .right expression]

/-- What is done with operands. -/
def operatorRules : List (Phrase × Rule) := [
  (.optionalChain, "?."),
  (.callExpression, choice [
    rank .call (seq [part .function (choice [expression, importWord]), part .arguments arguments]),
    rank .templateCall <| seq [part .function (choice [primaryExpression, newExpression]),
      part .arguments templateString],
    rank .member <| seq [part .function primaryExpression, part .optionalMark optionalChain,
      part .arguments arguments]]),
  (.newExpression, rightAt .construct <| seq ["new",
    part .constructed (choice [primaryExpression, newExpression]),
    part .arguments (opt (weigh 1 arguments))]),
  (.awaitExpression, rank .prefixed (seq ["await", expression])),
  (.memberExpression, rank .member <| seq [
    part .object (choice [expression, primaryExpression, importWord]),
    choice [".", part .optionalMark optionalChain],
    part .property (choice [privateIdentifier, asKind .propertyIdentifier identifier])]),
  (.subscriptExpression,
    rightAt .member <| seq [part .object (choice [expression, primaryExpression]),
    opt (part .optionalMark optionalChain), "[", part .index expressions, "]"]),
  (.assignable, choice [memberExpression, subscriptExpression, plainName,
    asKind .identifier softKeyword, destructuringPattern]),
  (.assignmentExpression, rightAt .assign <| seq [opt "using",
    part .left (choice [parenthesizedExpression, assignable]), "=", part .right expression]),
  (.updatable, choice [memberExpression, subscriptExpression, asKind .identifier softKeyword,
    identifier, parenthesizedExpression]),
  (.augmentedAssignment, rightAt .assign <| seq [part .left updatable,
    part .operator <| choice ["+=", "-=", "*=", "/=", "%=", "^=", "&=", "|=", ">>=", ">>>=", "<<=",
      "**=", "&&=", "||=", "??="], part .right expression]),
  (.initializer, seq ["=", part .value expression]),
  (.destructuringPattern, choice [objectPattern, arrayPattern]),
  (.spreadElement, seq ["...", expression]),
  (.ternaryExpression, rightAt .ternary <| seq [part .condition expression, asMark ternaryMark,
    part .consequence expression, ":", part .alternative expression]),
  (.binaryExpression, choice (operators.map fun (l, s, sign) => operation l s sign)),
  (.unaryExpression, leftAt .prefixed <| seq [
    part .operator (choice ["!", "~", "-", "+", "typeof", "void", "delete"]),
    part .argument expression]),
  (.updateExpression, left <| choice [
    seq [part .argument expression, part .operator (choice ["++", "--"])],
    seq [part .operator (choice ["++", "--"]), part .argument expression]]),
  (.sequenceExpression, right (commaList1 expression))]

/-! ## Literals and names -/

/-- What a literal and a name are. -/
def literalRules : List (Phrase × Rule) := [
  (.string, choice [
    seq ["\x22", many (choice [asKind .other doubleStringText, escapeSequence]), "\x22"],
    seq ["\x27", many (choice [asKind .other singleStringText, escapeSequence]), "\x27"]]),
  (.doubleStringText, Lexeme.doubleText),
  (.singleStringText, Lexeme.singleText),
  (.escapeSequence, Lexeme.escape),
  (.comment, Lexeme.comment),
  (.templateString, seq ["\x60",
    many (choice [asKind .other templateText, escapeSequence, templateSubstitution]), "\x60"]),
  (.templateSubstitution, seq ["$\x7b", expressions, "\x7d"]),
  (.regex, seq ["/", part .pattern regexPattern, Lexeme.regexEnd, opt (part .flags regexFlags)]),
  (.regexPattern, Lexeme.regexBody),
  (.regexFlags, Lexeme.regexFlags),
  (.number, Lexeme.number),
  (.plainName, choice [undefinedLiteral, identifier]),
  (.identifier, Lexeme.name),
  (.privateIdentifier, Lexeme.privateName),
  (.metaProperty, choice [seq ["new", ".", "target"], seq ["import", ".", "meta"]]),
  (.thisValue, "this"),
  (.superValue, "super"),
  (.trueLiteral, "true"),
  (.falseLiteral, "false"),
  (.nullLiteral, "null"),
  (.undefinedLiteral, "undefined")]

/-! ## Parts of calls, classes and objects -/

/-- What stands in the brackets of calls, classes and objects. -/
def memberRules : List (Phrase × Rule) := [
  (.arguments, seq ["(", commaList (opt (choice [expression, spreadElement])), ")"]),
  (.decorator, seq ["@",
    choice [identifier, asKind .memberExpression decoratorMember,
      asKind .callExpression decoratorCall]]),
  (.decoratorMember, rank .member <| seq [
    part .object (choice [identifier, asKind .memberExpression decoratorMember]), ".",
    part .property (asKind .propertyIdentifier identifier)]),
  (.decoratorCall, rank .call <| seq [
    part .function (choice [identifier, asKind .memberExpression decoratorMember]),
    part .arguments arguments]),
  (.classBody, seq ["\x7b",
    many <| choice [seq [part .member methodDefinition, opt ";"],
      seq [part .member fieldDefinition, choice [lineEnd, ";"]], part .member classStaticBlock,
        ";"],
    "\x7d"]),
  (.fieldDefinition,
    seq [many (part .decorator decorator), opt "static", part .property propertyName,
    opt initializer]),
  (.formalParameters, seq ["(", opt (seq [commaList1 formalParameter, opt ","]), ")"]),
  (.classStaticBlock, seq ["static", part .body statementBlock]),
  (.pattern, weigh (-1) (choice [assignable, restPattern])),
  (.restPattern, right (seq ["...", assignable])),
  (.methodDefinition, seq [many (part .decorator decorator),
    opt (choice ["static", asMark Lexeme.staticGet]), opt "async", opt (choice ["get", "set", "*"]),
    part .name propertyName, part .parameters formalParameters, part .body statementBlock]),
  (.pair, seq [part .key propertyName, ":", part .value expression]),
  (.pairPattern,
    seq [part .key propertyName, ":", part .value (choice [pattern, assignmentPattern])]),
  (.propertyName, choice [asKind .propertyIdentifier (choice [identifier, softKeyword]),
    privateIdentifier, string, number, computedPropertyName]),
  (.computedPropertyName, seq ["[", expression, "]"]),
  (.softKeyword, choice ["get", "set", "async", "static", "export", "let"]),
  (.semicolon, choice [lineEnd, ";"])]

/-! ## The whole -/

/-- The rules of all phrases. -/
def rules : List (Phrase × Rule) :=
  moduleRules ++ statementRules ++ valueRules ++ markupRules ++ functionRules ++ operatorRules ++
    literalRules ++ memberRules

/-- The phrases that only name a group of alternatives or an often used part. -/
def inlined : List Phrase :=
  [expressions, semicolon, plainName, softKeyword, elementAttribute, elementName,
    markupChild, markup,
    attributeName, attributeValue, markupIdentifier, assignable]

/-- The orders of ranks, each from the highest down. -/
def orders : List (List Placed) :=
  [[Level.member, Level.templateCall, Level.call, updateExpression, Level.prefixed, Level.power,
      Level.product, Level.sum, Level.shift, Level.comparison, Level.relation, Level.equality,
      Level.bitAnd, Level.bitXor, Level.bitOr, Level.logicalAnd, Level.logicalOr, Level.ternary,
      sequenceExpression, arrowFunction],
    [Level.assign, primaryExpression],
    [Level.member, Level.templateCall, Level.construct, Level.call, expression],
    [Level.declaration, Level.literal],
    [primaryExpression, statementBlock, Level.object],
    [metaProperty, importWord],
    [importStatement, importWord],
    [exportStatement, primaryExpression],
    [lexicalDeclaration, primaryExpression]]

/-- The words that stand between operands. -/
def operatorWords : List String := ["in", "of", "instanceof"]

/-- The grammar of JavaScript. -/
def definition : Definition where
  rules := rules
  inlined := signature :: formalParameter :: inlined
  orders := orders
  operatorWords := operatorWords
  boundaries := []
  statementBoundaries := [classBody, statementBlock]
  typed := false

end RouteAtlas.Grammar.Script
