import RouteAtlas.Grammar.Script

/-!
# The grammar of TypeScript

TypeScript has the rules of JavaScript, some of them with other contents, and those of types.
Sources with markup have no type assertions in angle brackets, and the other ones have no markup.
-/

namespace RouteAtlas.Grammar.Typed

open Phrase Rule Contextual

/-- What replaces a rule of JavaScript. -/
def changedRules : List (Phrase × Rule) := [
  (.exportStatement, choice [
    seq ["export",
      choice [seq ["*", fromClause], seq [namespaceExport, fromClause],
        seq [exportClause, fromClause],
        exportClause], semicolon],
    seq [many (part .decorator decorator), "export",
      choice [part .declaration declaration,
        seq ["default",
          choice [part .declaration declaration, seq [part .value expression, semicolon]]]]],
    seq ["export", "type", exportClause, opt fromClause, semicolon],
    seq ["export", "import", importAlias], seq ["export", "=", expression, semicolon],
    seq ["export", "as", "namespace", identifier, semicolon]]),
  (.exportSpecifier, seq [opt (choice ["type", "typeof"]),
    seq [part .name exportName, opt (seq ["as", part .newName exportName])]]),
  (.declaration, choice [functionDeclaration, generatorFunctionDeclaration, classDeclaration,
    lexicalDeclaration, variableDeclaration, functionSignature, abstractClassDeclaration,
    moduleDeclaration, rank .ambient namespaceDeclaration, typeAliasDeclaration, enumDeclaration,
    interfaceDeclaration, importAlias, ambientDeclaration]),
  (.importStatement, seq ["import", opt (choice ["type", "typeof"]),
    choice [seq [importClause, fromClause], importRequireClause, part .source string],
    opt importAttribute, semicolon]),
  (.importAttribute, seq [choice ["with", "assert"], object]),
  (.importClause, choice [namespaceImport, namedImports,
    seq [importName, opt (seq [",", choice [namespaceImport, namedImports]])]]),
  (.importSpecifier, seq [opt (choice ["type", "typeof"]),
    choice [part .name importName,
      seq [part .name (choice [exportName, asKind .identifier "type"]), "as",
        part .newName importName]]]),
  (.variableDeclarator, choice [
    seq [part .name (choice [identifier, destructuringPattern]), part .typing (opt typeClause),
      opt initializer], rank .ambient (seq [part .name identifier, "!", part .typing typeClause])]),
  (.catchClause, seq ["catch",
    opt <| seq ["(", part .parameter (choice [identifier, destructuringPattern]),
      opt (part .typing typeClause), ")"], part .body statementBlock]),
  (.parenthesizedExpression, seq ["(",
    choice [seq [expression, part .typing (opt typeClause)], sequenceExpression], ")"]),
  (.primaryExpression, choice [subscriptExpression, memberExpression, parenthesizedExpression,
    plainName, asKind .identifier softKeyword, thisValue, superValue, number, string,
      templateString,
    regex, trueLiteral, falseLiteral, nullLiteral, object, array, functionExpression, arrowFunction,
    generatorFunction, classExpression, metaProperty, callExpression, nonNullExpression]),
  (.openingTag, weigh (-1) (seq [tagStart, ">"])),
  (.selfClosingElement, weigh (-1) (seq [tagStart, "/>"])),
  (.classExpression, rank .literal <| seq [many (part .decorator decorator), "class",
    part .name (opt typeName), part .typeParameters (opt typeParameters), opt classHeritage,
    part .body classBody]),
  (.classDeclaration, leftAt .declaration <| seq [many (part .decorator decorator), "class",
    part .name typeName, part .typeParameters (opt typeParameters), opt classHeritage,
    part .body classBody, opt lineEnd]),
  (.classHeritage, choice [seq [extendsClause, opt implementsClause], implementsClause]),
  (.signature, seq [part .typeParameters (opt typeParameters), part .parameters formalParameters,
    part .returnType (opt (choice [typeClause, assertsClause, predicateClause]))]),
  (.formalParameter, choice [requiredParameter, optionalParameter]),
  (.callExpression, choice [
    rank .call <| seq [part .function (choice [expression, importWord]),
      part .typeArguments (opt typeArguments), part .arguments arguments],
    rank .templateCall <| seq [part .function (choice [primaryExpression, newExpression]),
      part .arguments templateString],
    rank .member <| seq [part .function primaryExpression, "?.",
      part .typeArguments (opt typeArguments), part .arguments arguments]]),
  (.newExpression, rightAt .construct <| seq ["new", part .constructed primaryExpression,
    part .typeArguments (opt typeArguments), part .arguments (opt arguments)]),
  (.assignable, choice [memberExpression, subscriptExpression, plainName,
    asKind .identifier softKeyword, destructuringPattern, nonNullExpression]),
  (.assignmentExpression, rightAt .assign <| seq [opt "using",
    part .left (choice [parenthesizedExpression, assignable]), "=", part .right expression]),
  (.updatable, choice [memberExpression, subscriptExpression, asKind .identifier softKeyword,
    identifier, parenthesizedExpression, nonNullExpression]),
  (.decorator, seq ["@",
    choice [identifier, asKind .memberExpression decoratorMember,
      asKind .callExpression decoratorCall,
      asKind .parenthesizedExpression decoratorGroup]]),
  (.decoratorCall, rank .call <| seq [
    part .function (choice [identifier, asKind .memberExpression decoratorMember]),
    opt (part .typeArguments typeArguments), part .arguments arguments]),
  (.classBody, seq ["\x7b",
    many <| choice [seq [many (part .decorator decorator), methodDefinition, opt semicolon],
      seq [methodSignature, choice [signatureEnd, ","]], classStaticBlock,
      seq [choice [abstractMethodSignature, indexSignature, methodSignature, fieldMember],
        choice [semicolon, ","]], ";"], "\x7d"]),
  (.methodDefinition, left <| seq [opt accessibilityModifier, opt "static", opt overrideModifier,
    opt "readonly", opt "async", opt (choice ["get", "set", "*"]), part .name propertyName, opt "?",
    signature, part .body statementBlock]),
  (.softKeyword,
    choice ["declare", "namespace", "type", "public", "private", "protected", "override",
    "readonly", "module", "any", "number", "boolean", "string", "symbol", "export", "object", "new",
    "get", "set", "async", "static", "let"])]

/-- What an expression is. -/
def expressionRule (markup : Bool) : Rule :=
  let asserted : List Phrase := if markup then [] else [typeAssertion]
  let elements : List Phrase := if markup then [Phrase.markup] else []
  choice <| List.map Rule.phrase <|
    [asExpression, satisfiesExpression, instantiationExpression, namespaceDeclaration] ++
      asserted ++
    [primaryExpression] ++ elements ++
    [assignmentExpression, augmentedAssignment, awaitExpression, unaryExpression, binaryExpression,
      ternaryExpression, updateExpression, newExpression, yieldExpression]

/-- What is declared and written with types. -/
def declarationRules : List (Phrase × Rule) := [
  (.fieldMember, seq [many (part .decorator decorator),
    opt <| choice [seq ["declare", opt accessibilityModifier],
      seq [accessibilityModifier, opt "declare"]],
    choice [seq [opt "static", opt overrideModifier, opt "readonly"],
      seq [opt "abstract", opt "readonly"], seq [opt "readonly", opt "abstract"], opt "accessor"],
    part .name propertyName, opt (choice ["?", "!"]), part .typing (opt typeClause),
      opt initializer]),
  (.tagStart, seq ["<",
    opt <| seq [
      choice [part .name (choice [markupIdentifier, namespacedName]),
        seq [part .name (choice [identifier, asKind .memberExpression nestedIdentifier]),
          part .typeArguments (opt typeArguments)]], many (part .attribute elementAttribute)]]),
  (.importName, choice [identifier, asKind .identifier "type"]),
  (.nonNullExpression, leftAt .unary (seq [expression, "!"])),
  (.methodSignature,
    seq [opt accessibilityModifier, opt "static", opt overrideModifier, opt "readonly",
    opt "async", opt (choice ["get", "set", "*"]), part .name propertyName, opt "?", signature]),
  (.abstractMethodSignature, seq [opt accessibilityModifier, "abstract", opt overrideModifier,
    opt (choice ["get", "set", "*"]), part .name propertyName, opt "?", signature]),
  (.functionSignature, seq [opt "async", "function", part .name identifier, signature,
    choice [semicolon, signatureEnd]]),
  (.decoratorGroup, seq ["(",
    choice [identifier, asKind .memberExpression decoratorMember,
      asKind .callExpression decoratorCall],
    ")"]),
  (.typeAssertion, leftAt .unary (seq [typeArguments, expression])),
  (.asExpression, leftAt .binary (seq [expression, "as", choice ["const", typeExpression]])),
  (.satisfiesExpression, leftAt .binary (seq [expression, "satisfies", typeExpression])),
  (.instantiationExpression,
    rank .instantiation (seq [expression, part .typeArguments typeArguments])),
  (.importRequireClause, seq [identifier, "=", "require", "(", part .source string, ")"]),
  (.extendsClause, seq ["extends", commaList1 extendsItem]),
  (.extendsItem, rank .heritage <| seq [part .value expression,
    part .typeArguments (opt typeArguments)]),
  (.implementsClause, seq ["implements", commaList1 typeExpression]),
  (.ambientDeclaration, seq ["declare",
    choice [declaration, seq ["global", statementBlock],
      seq ["module", ".", asKind .propertyIdentifier identifier, ":", typeExpression, semicolon]]]),
  (.abstractClassDeclaration,
    rank .declaration <| seq [many (part .decorator decorator), "abstract",
    "class", part .name typeName, part .typeParameters (opt typeParameters), opt classHeritage,
    part .body classBody]),
  (.moduleDeclaration, seq ["module", moduleBody]),
  (.namespaceDeclaration, seq ["namespace", moduleBody]),
  (.moduleBody, right <| seq [part .name (choice [string, identifier, nestedIdentifier]),
    part .body (opt statementBlock)]),
  (.importAlias, seq ["import", identifier, "=", choice [identifier, nestedIdentifier], semicolon]),
  (.nestedTypeIdentifier,
    rank .member <| seq [part .moduleName (choice [identifier, nestedIdentifier]),
    ".", part .name typeName]),
  (.interfaceDeclaration, seq ["interface", part .name typeName,
    part .typeParameters (opt typeParameters), opt extendsTypeClause,
    part .body (asKind .other objectType)]),
  (.extendsTypeClause, seq ["extends",
    commaList1 (part .typing (choice [typeName, nestedTypeIdentifier, genericType]))]),
  (.enumDeclaration, seq [opt "const", "enum", part .name identifier, part .body enumBody]),
  (.enumBody, seq ["\x7b",
    opt (seq [separated "," (choice [part .name propertyName, enumAssignment]), opt ","]), "\x7d"]),
  (.enumAssignment, seq [part .name propertyName, initializer]),
  (.typeAliasDeclaration,
    seq ["type", part .name typeName, part .typeParameters (opt typeParameters),
    "=", part .value typeExpression, semicolon]),
  (.accessibilityModifier, choice ["public", "private", "protected"]),
  (.overrideModifier, "override"),
  (.requiredParameter, seq [parameterName, part .typing (opt typeClause), opt initializer]),
  (.optionalParameter, seq [parameterName, "?", part .typing (opt typeClause), opt initializer]),
  (.parameterName, seq [many (part .decorator decorator), opt accessibilityModifier,
    opt overrideModifier, opt "readonly", part .pattern (choice [pattern, thisValue])])]

/-- What the types are. -/
def typeRules : List (Phrase × Rule) := [
  (.omittingClause, seq ["-?:", typeExpression]),
  (.addingClause, seq ["+?:", typeExpression]),
  (.optingClause, seq ["?:", typeExpression]),
  (.typeClause, seq [":",
    choice [typeExpression, asKind .memberExpression importedMember,
      asKind .callExpression importedCall]]),
  (.importedMember, seq [
    part .object <| choice [importWord, asKind .memberExpression importedMember,
      asKind .callExpression importedCall], ".",
    part .property (choice [privateIdentifier, asKind .propertyIdentifier identifier])]),
  (.importedCall,
    seq [part .function (choice [importWord, asKind .memberExpression importedMember]),
    part .arguments arguments]),
  (.asserts, seq ["asserts", choice [typePredicate, identifier, thisValue]]),
  (.assertsClause, seq [":", asserts]),
  (.typeExpression, choice [primaryType, functionType, readonlyType, constructorType, inferType,
    rankNumber (-1) (asKind .memberExpression importedMember),
    rankNumber (-1) (asKind .callExpression importedCall)]),
  (.tupleParameter, seq [part .name (choice [identifier, restPattern]), part .typing typeClause]),
  (.optionalTupleParameter, seq [part .name identifier, "?", part .typing typeClause]),
  (.optionalType, seq [typeExpression, "?"]),
  (.restType, seq ["...", typeExpression]),
  (.tupleMember, choice [asKind .requiredParameter tupleParameter,
    asKind .optionalParameter optionalTupleParameter, optionalType, restType, typeExpression]),
  (.constructorType, left <| seq [opt "abstract", "new", part .typeParameters (opt typeParameters),
    part .parameters formalParameters, "=>", part .typing typeExpression]),
  (.primaryType,
    choice [parenthesizedType, predefinedType, typeName, nestedTypeIdentifier, genericType,
    objectType, arrayType, tupleType, maybeType, typeQuery, indexTypeQuery, asKind .other thisValue,
    starType, literalType, lookupType, conditionalType, templateLiteralType, intersectionType,
    unionType, "const"]),
  (.templateType, seq ["$\x7b", choice [primaryType, inferType], "\x7d"]),
  (.templateLiteralType, seq ["\x60", many (choice [asKind .other templateText, templateType]),
    "\x60"]),
  (.inferType, right (seq ["infer", typeName, opt (seq ["extends", typeExpression])])),
  (.conditionalType, right <| seq [part .left typeExpression, "extends", part .right typeExpression,
    "?", part .consequence typeExpression, ":", part .alternative typeExpression]),
  (.genericType, rank .call <| seq [part .name (choice [typeName, nestedTypeIdentifier]),
    part .typeArguments typeArguments]),
  (.typePredicate,
    seq [part .name (choice [identifier, thisValue, asKind .identifier predefinedType]),
    "is", part .typing typeExpression]),
  (.predicateClause, seq [":", typePredicate]),
  (.queriedMember, seq [
    part .object <| choice [identifier, thisValue, asKind .subscriptExpression queriedSubscript,
      asKind .memberExpression queriedMember, asKind .callExpression queriedCall],
        choice [".", "?."],
    part .property (choice [privateIdentifier, asKind .propertyIdentifier identifier])]),
  (.queriedSubscript, seq [
    part .object <| choice [identifier, thisValue, asKind .subscriptExpression queriedSubscript,
      asKind .memberExpression queriedMember, asKind .callExpression queriedCall], opt "?.", "[",
    part .index (choice [predefinedType, string, number]), "]"]),
  (.queriedCall, seq [
    part .function <| choice [importWord, identifier, asKind .memberExpression queriedMember,
      asKind .subscriptExpression queriedSubscript], part .arguments arguments]),
  (.queriedInstantiation, seq [
    part .function <| choice [importWord, identifier, asKind .memberExpression queriedMember,
      asKind .subscriptExpression queriedSubscript], part .typeArguments typeArguments]),
  (.typeQuery, right <| seq ["typeof",
    choice [asKind .subscriptExpression queriedSubscript, asKind .memberExpression queriedMember,
      asKind .callExpression queriedCall, asKind .other queriedInstantiation, identifier,
        thisValue]]),
  (.indexTypeQuery, seq ["keyof", primaryType])]

/-- What stands inside the types. -/
def typePartRules : List (Phrase × Rule) := [
  (.lookupType, seq [primaryType, "[", typeExpression, "]"]),
  (.mappedTypeClause, seq [part .name typeName, "in", part .typing typeExpression,
    opt (seq ["as", part .newName typeExpression])]),
  (.literalType, choice [asKind .unaryExpression signedNumber, number, string, trueLiteral,
    falseLiteral, nullLiteral, undefinedLiteral]),
  (.signedNumber, sidedNumber .left 1 <| seq [part .operator (choice ["-", "+"]),
    part .argument number]),
  (.starType, "*"),
  (.maybeType, right (seq ["?", primaryType])),
  (.parenthesizedType, seq ["(", typeExpression, ")"]),
  (.predefinedType, choice ["any", "number", "boolean", "string", "symbol",
    asMark (seq ["unique", "symbol"]), "void", "unknown", "string", "never", "object"]),
  (.typeArguments, seq ["<", commaList1 typeExpression, opt ",", ">"]),
  (.objectType, seq [choice ["\x7b", "\x7b|"],
    opt <| seq [opt (choice [",", ";"]),
      separated (choice [",", semicolon]) <| choice
        [exportStatement, propertySignature, callSignature,
        constructSignature, indexSignature, methodSignature], opt (choice [",", semicolon])],
    choice ["\x7d", "|\x7d"]]),
  (.callSignature, signature),
  (.propertySignature, seq [opt accessibilityModifier, opt "static", opt overrideModifier,
    opt "readonly", part .name propertyName, opt "?", part .typing (opt typeClause)]),
  (.typeParameters, seq ["<", commaList1 typeParameter, opt ",", ">"]),
  (.typeParameter, seq [opt "const", part .name typeName, part .constraint (opt constraint),
    part .value (opt defaultType)]),
  (.defaultType, seq ["=", typeExpression]),
  (.constraint, seq [choice ["extends", ":"], typeExpression]),
  (.constructSignature, seq [opt "abstract", "new", part .typeParameters (opt typeParameters),
    part .parameters formalParameters, part .typing (opt typeClause)]),
  (.indexSignature, seq [opt (seq [part .sign (opt (choice ["-", "+"])), "readonly"]), "[",
    choice [
      seq [part .name (choice [identifier, asKind .identifier softKeyword]), ":",
        part .indexType typeExpression], mappedTypeClause], "]",
    part .typing (choice [typeClause, omittingClause, addingClause, optingClause])]),
  (.arrayType, seq [primaryType, "[", "]"]),
  (.tupleType, seq ["[", commaList tupleMember, opt ",", "]"]),
  (.readonlyType, seq ["readonly", typeExpression]),
  (.unionType, left (seq [opt typeExpression, "|", typeExpression])),
  (.intersectionType, left (seq [opt typeExpression, "&", typeExpression])),
  (.functionType, left <| seq [part .typeParameters (opt typeParameters),
    part .parameters formalParameters, "=>",
    part .returnType (choice [typeExpression, asserts, typePredicate])]),
  (.typeName, asKind .other identifier)]

/-! ## The whole -/

/-- The rules of all phrases: those of JavaScript in their order, as far as they are not replaced,
and then the new ones. -/
def rules (markup : Bool) : List (Phrase × Rule) :=
  let changed := (expression, expressionRule markup) :: changedRules
  let kept := Script.rules.map fun (p, r) => (p, (changed.lookup p).getD r)
  kept ++ declarationRules ++ typeRules ++ typePartRules

/-- The orders of ranks beyond those of JavaScript. -/
def orders : List (List Placed) :=
  [[Level.call, Level.instantiation, Level.unary, Level.binary, awaitExpression, arrowFunction],
    [Level.heritage, Level.instantiation],
    [intersectionType, unionType, conditionalType, functionType, Level.binary, typePredicate,
      readonlyType],
    [mappedTypeClause, primaryExpression],
    [accessibilityModifier, primaryExpression],
    [Level.prefixed, expression],
    [extendsClause, primaryExpression],
    [Level.unary, Level.assign],
    [Level.ambient, expression],
    [predefinedType, unaryExpression],
    [typeExpression, maybeType],
    [tupleType, arrayType, pattern, typeExpression],
    [readonlyType, pattern],
    [readonlyType, primaryExpression],
    [typeQuery, subscriptExpression, expression],
    [typeQuery, queriedSubscript],
    [nestedTypeIdentifier, genericType, primaryType, lookupType, indexTypeQuery, typeExpression]]

/-- The orders of ranks between what looks the same at first. -/
def lookalikes : List (List Placed) :=
  [[asExpression, satisfiesExpression, primaryType],
    [queriedMember, memberExpression],
    [memberExpression, importedMember],
    [queriedMember, primaryExpression],
    [queriedSubscript, subscriptExpression],
    [queriedSubscript, primaryExpression],
    [queriedCall, primaryExpression],
    [queriedInstantiation, primaryExpression],
    [typeQuery, primaryExpression],
    [overrideModifier, primaryExpression],
    [decoratorCall, decorator],
    [literalType, pattern],
    [predefinedType, pattern],
    [callExpression, queriedCall],
    [callExpression, importedCall],
    [newExpression, primaryExpression],
    [metaProperty, primaryExpression],
    [constructSignature, propertyName]]

/-- The grammar of TypeScript, with or without markup. -/
def definition (markup : Bool) : Definition where
  rules := rules markup
  inlined := Script.inlined ++ [typeName, tagStart]
  orders := Script.orders ++ orders ++ lookalikes
  operatorWords := Script.operatorWords ++ ["as", "satisfies", "implements"]
  boundaries := [string, arguments, typeArguments]
  statementBoundaries :=
    [classBody, statementBlock, moduleBody, namespaceDeclaration, nestedIdentifier]
  typed := true

end RouteAtlas.Grammar.Typed
