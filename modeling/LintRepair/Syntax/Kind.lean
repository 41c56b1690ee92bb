/-!
# Kinds of syntax

The kinds of tokens and of nodes, with the names under which trees show them and the text of those
tokens that are always written the same way.
-/
namespace LintRepair.Syntax

inductive Kind where
  | unknown | endOfFileToken | numericLiteral | bigIntLiteral | stringLiteral | jsxText
  | jsxTextAllWhiteSpaces | regularExpressionLiteral | noSubstitutionTemplateLiteral
  | templateHead | templateMiddle | templateTail | conflictMarkerTrivia | openBraceToken
  | closeBraceToken | openParenToken | closeParenToken | openBracketToken | closeBracketToken
  | dotToken | dotDotDotToken | semicolonToken | commaToken | questionDotToken | lessThanToken
  | lessThanSlashToken | greaterThanToken | lessThanEqualsToken | greaterThanEqualsToken
  | equalsEqualsToken | exclamationEqualsToken | equalsEqualsEqualsToken
  | exclamationEqualsEqualsToken | equalsGreaterThanToken | plusToken | minusToken
  | asteriskToken | asteriskAsteriskToken | slashToken | percentToken | plusPlusToken
  | minusMinusToken | lessThanLessThanToken | greaterThanGreaterThanToken
  | greaterThanGreaterThanGreaterThanToken | ampersandToken | barToken | caretToken
  | exclamationToken | tildeToken | ampersandAmpersandToken | barBarToken | questionToken
  | colonToken | atToken | questionQuestionToken | backtickToken | hashToken | equalsToken
  | plusEqualsToken | minusEqualsToken | asteriskEqualsToken | asteriskAsteriskEqualsToken
  | slashEqualsToken | percentEqualsToken | lessThanLessThanEqualsToken
  | greaterThanGreaterThanEqualsToken | greaterThanGreaterThanGreaterThanEqualsToken
  | ampersandEqualsToken | barEqualsToken | barBarEqualsToken | ampersandAmpersandEqualsToken
  | questionQuestionEqualsToken | caretEqualsToken | identifier | privateIdentifier
  | breakKeyword | caseKeyword | catchKeyword | classKeyword | constKeyword | continueKeyword
  | debuggerKeyword | defaultKeyword | deleteKeyword | doKeyword | elseKeyword | enumKeyword
  | exportKeyword | extendsKeyword | falseKeyword | finallyKeyword | forKeyword | functionKeyword
  | ifKeyword | importKeyword | inKeyword | instanceOfKeyword | newKeyword | nullKeyword
  | returnKeyword | superKeyword | switchKeyword | thisKeyword | throwKeyword | trueKeyword
  | tryKeyword | typeOfKeyword | varKeyword | voidKeyword | whileKeyword | withKeyword
  | implementsKeyword | interfaceKeyword | letKeyword | packageKeyword | privateKeyword
  | protectedKeyword | publicKeyword | staticKeyword | yieldKeyword | abstractKeyword
  | accessorKeyword | asKeyword | assertsKeyword | assertKeyword | anyKeyword | asyncKeyword
  | awaitKeyword | booleanKeyword | constructorKeyword | declareKeyword | getKeyword
  | inferKeyword | intrinsicKeyword | isKeyword | keyOfKeyword | moduleKeyword | namespaceKeyword
  | neverKeyword | outKeyword | readonlyKeyword | requireKeyword | numberKeyword | objectKeyword
  | satisfiesKeyword | setKeyword | stringKeyword | symbolKeyword | typeKeyword
  | undefinedKeyword | uniqueKeyword | unknownKeyword | usingKeyword | fromKeyword
  | globalKeyword | bigIntKeyword | overrideKeyword | ofKeyword | qualifiedName
  | computedPropertyName | typeParameter | parameter | decorator | propertySignature
  | propertyDeclaration | methodSignature | methodDeclaration | classStaticBlockDeclaration
  | constructorDeclaration | getAccessor | setAccessor | callSignature | constructSignature
  | indexSignature | typePredicate | typeReference | functionType | constructorType | typeQuery
  | typeLiteral | arrayType | tupleType | optionalType | restType | unionType | intersectionType
  | conditionalType | inferType | parenthesizedType | thisType | typeOperator | indexedAccessType
  | mappedType | literalType | namedTupleMember | templateLiteralType | templateLiteralTypeSpan
  | importType | objectBindingPattern | arrayBindingPattern | bindingElement
  | arrayLiteralExpression | objectLiteralExpression | propertyAccessExpression
  | elementAccessExpression | callExpression | newExpression | taggedTemplateExpression
  | typeAssertionExpression | parenthesizedExpression | functionExpression | arrowFunction
  | deleteExpression | typeOfExpression | voidExpression | awaitExpression
  | prefixUnaryExpression | postfixUnaryExpression | binaryExpression | conditionalExpression
  | templateExpression | yieldExpression | spreadElement | classExpression | omittedExpression
  | expressionWithTypeArguments | asExpression | nonNullExpression | metaProperty
  | satisfiesExpression | templateSpan | semicolonClassElement | block | emptyStatement
  | variableStatement | expressionStatement | ifStatement | doStatement | whileStatement
  | forStatement | forInStatement | forOfStatement | continueStatement | breakStatement
  | returnStatement | withStatement | switchStatement | labeledStatement | throwStatement
  | tryStatement | debuggerStatement | variableDeclaration | variableDeclarationList
  | functionDeclaration | classDeclaration | interfaceDeclaration | typeAliasDeclaration
  | enumDeclaration | moduleDeclaration | moduleBlock | caseBlock | namespaceExportDeclaration
  | importEqualsDeclaration | importDeclaration | importClause | namespaceImport | namedImports
  | importSpecifier | exportAssignment | exportDeclaration | namedExports | namespaceExport
  | exportSpecifier | missingDeclaration | externalModuleReference | jsxElement
  | jsxSelfClosingElement | jsxOpeningElement | jsxClosingElement | jsxFragment
  | jsxOpeningFragment | jsxClosingFragment | jsxAttribute | jsxAttributes | jsxSpreadAttribute
  | jsxExpression | jsxNamespacedName | caseClause | defaultClause | heritageClause | catchClause
  | importAttributes | importAttribute | propertyAssignment | shorthandPropertyAssignment
  | spreadAssignment | enumMember | sourceFile | jsDocAllType | jsDocUnknownType
  | jsDocNullableType | jsDocNonNullableType | jsDocFunctionType
deriving DecidableEq, Repr, Inhabited

namespace Kind

/-- The name of a kind in a tree. -/
def name : Kind → String
  | unknown => "Unknown"
  | endOfFileToken => "EndOfFileToken"
  | numericLiteral => "NumericLiteral"
  | bigIntLiteral => "BigIntLiteral"
  | stringLiteral => "StringLiteral"
  | jsxText => "JsxText"
  | jsxTextAllWhiteSpaces => "JsxTextAllWhiteSpaces"
  | regularExpressionLiteral => "RegularExpressionLiteral"
  | noSubstitutionTemplateLiteral => "NoSubstitutionTemplateLiteral"
  | templateHead => "TemplateHead"
  | templateMiddle => "TemplateMiddle"
  | templateTail => "TemplateTail"
  | conflictMarkerTrivia => "ConflictMarkerTrivia"
  | openBraceToken => "OpenBraceToken"
  | closeBraceToken => "CloseBraceToken"
  | openParenToken => "OpenParenToken"
  | closeParenToken => "CloseParenToken"
  | openBracketToken => "OpenBracketToken"
  | closeBracketToken => "CloseBracketToken"
  | dotToken => "DotToken"
  | dotDotDotToken => "DotDotDotToken"
  | semicolonToken => "SemicolonToken"
  | commaToken => "CommaToken"
  | questionDotToken => "QuestionDotToken"
  | lessThanToken => "LessThanToken"
  | lessThanSlashToken => "LessThanSlashToken"
  | greaterThanToken => "GreaterThanToken"
  | lessThanEqualsToken => "LessThanEqualsToken"
  | greaterThanEqualsToken => "GreaterThanEqualsToken"
  | equalsEqualsToken => "EqualsEqualsToken"
  | exclamationEqualsToken => "ExclamationEqualsToken"
  | equalsEqualsEqualsToken => "EqualsEqualsEqualsToken"
  | exclamationEqualsEqualsToken => "ExclamationEqualsEqualsToken"
  | equalsGreaterThanToken => "EqualsGreaterThanToken"
  | plusToken => "PlusToken"
  | minusToken => "MinusToken"
  | asteriskToken => "AsteriskToken"
  | asteriskAsteriskToken => "AsteriskAsteriskToken"
  | slashToken => "SlashToken"
  | percentToken => "PercentToken"
  | plusPlusToken => "PlusPlusToken"
  | minusMinusToken => "MinusMinusToken"
  | lessThanLessThanToken => "LessThanLessThanToken"
  | greaterThanGreaterThanToken => "GreaterThanGreaterThanToken"
  | greaterThanGreaterThanGreaterThanToken => "GreaterThanGreaterThanGreaterThanToken"
  | ampersandToken => "AmpersandToken"
  | barToken => "BarToken"
  | caretToken => "CaretToken"
  | exclamationToken => "ExclamationToken"
  | tildeToken => "TildeToken"
  | ampersandAmpersandToken => "AmpersandAmpersandToken"
  | barBarToken => "BarBarToken"
  | questionToken => "QuestionToken"
  | colonToken => "ColonToken"
  | atToken => "AtToken"
  | questionQuestionToken => "QuestionQuestionToken"
  | backtickToken => "BacktickToken"
  | hashToken => "HashToken"
  | equalsToken => "EqualsToken"
  | plusEqualsToken => "PlusEqualsToken"
  | minusEqualsToken => "MinusEqualsToken"
  | asteriskEqualsToken => "AsteriskEqualsToken"
  | asteriskAsteriskEqualsToken => "AsteriskAsteriskEqualsToken"
  | slashEqualsToken => "SlashEqualsToken"
  | percentEqualsToken => "PercentEqualsToken"
  | lessThanLessThanEqualsToken => "LessThanLessThanEqualsToken"
  | greaterThanGreaterThanEqualsToken => "GreaterThanGreaterThanEqualsToken"
  | greaterThanGreaterThanGreaterThanEqualsToken => "GreaterThanGreaterThanGreaterThanEqualsToken"
  | ampersandEqualsToken => "AmpersandEqualsToken"
  | barEqualsToken => "BarEqualsToken"
  | barBarEqualsToken => "BarBarEqualsToken"
  | ampersandAmpersandEqualsToken => "AmpersandAmpersandEqualsToken"
  | questionQuestionEqualsToken => "QuestionQuestionEqualsToken"
  | caretEqualsToken => "CaretEqualsToken"
  | identifier => "Identifier"
  | privateIdentifier => "PrivateIdentifier"
  | breakKeyword => "BreakKeyword"
  | caseKeyword => "CaseKeyword"
  | catchKeyword => "CatchKeyword"
  | classKeyword => "ClassKeyword"
  | constKeyword => "ConstKeyword"
  | continueKeyword => "ContinueKeyword"
  | debuggerKeyword => "DebuggerKeyword"
  | defaultKeyword => "DefaultKeyword"
  | deleteKeyword => "DeleteKeyword"
  | doKeyword => "DoKeyword"
  | elseKeyword => "ElseKeyword"
  | enumKeyword => "EnumKeyword"
  | exportKeyword => "ExportKeyword"
  | extendsKeyword => "ExtendsKeyword"
  | falseKeyword => "FalseKeyword"
  | finallyKeyword => "FinallyKeyword"
  | forKeyword => "ForKeyword"
  | functionKeyword => "FunctionKeyword"
  | ifKeyword => "IfKeyword"
  | importKeyword => "ImportKeyword"
  | inKeyword => "InKeyword"
  | instanceOfKeyword => "InstanceOfKeyword"
  | newKeyword => "NewKeyword"
  | nullKeyword => "NullKeyword"
  | returnKeyword => "ReturnKeyword"
  | superKeyword => "SuperKeyword"
  | switchKeyword => "SwitchKeyword"
  | thisKeyword => "ThisKeyword"
  | throwKeyword => "ThrowKeyword"
  | trueKeyword => "TrueKeyword"
  | tryKeyword => "TryKeyword"
  | typeOfKeyword => "TypeOfKeyword"
  | varKeyword => "VarKeyword"
  | voidKeyword => "VoidKeyword"
  | whileKeyword => "WhileKeyword"
  | withKeyword => "WithKeyword"
  | implementsKeyword => "ImplementsKeyword"
  | interfaceKeyword => "InterfaceKeyword"
  | letKeyword => "LetKeyword"
  | packageKeyword => "PackageKeyword"
  | privateKeyword => "PrivateKeyword"
  | protectedKeyword => "ProtectedKeyword"
  | publicKeyword => "PublicKeyword"
  | staticKeyword => "StaticKeyword"
  | yieldKeyword => "YieldKeyword"
  | abstractKeyword => "AbstractKeyword"
  | accessorKeyword => "AccessorKeyword"
  | asKeyword => "AsKeyword"
  | assertsKeyword => "AssertsKeyword"
  | assertKeyword => "AssertKeyword"
  | anyKeyword => "AnyKeyword"
  | asyncKeyword => "AsyncKeyword"
  | awaitKeyword => "AwaitKeyword"
  | booleanKeyword => "BooleanKeyword"
  | constructorKeyword => "ConstructorKeyword"
  | declareKeyword => "DeclareKeyword"
  | getKeyword => "GetKeyword"
  | inferKeyword => "InferKeyword"
  | intrinsicKeyword => "IntrinsicKeyword"
  | isKeyword => "IsKeyword"
  | keyOfKeyword => "KeyOfKeyword"
  | moduleKeyword => "ModuleKeyword"
  | namespaceKeyword => "NamespaceKeyword"
  | neverKeyword => "NeverKeyword"
  | outKeyword => "OutKeyword"
  | readonlyKeyword => "ReadonlyKeyword"
  | requireKeyword => "RequireKeyword"
  | numberKeyword => "NumberKeyword"
  | objectKeyword => "ObjectKeyword"
  | satisfiesKeyword => "SatisfiesKeyword"
  | setKeyword => "SetKeyword"
  | stringKeyword => "StringKeyword"
  | symbolKeyword => "SymbolKeyword"
  | typeKeyword => "TypeKeyword"
  | undefinedKeyword => "UndefinedKeyword"
  | uniqueKeyword => "UniqueKeyword"
  | unknownKeyword => "UnknownKeyword"
  | usingKeyword => "UsingKeyword"
  | fromKeyword => "FromKeyword"
  | globalKeyword => "GlobalKeyword"
  | bigIntKeyword => "BigIntKeyword"
  | overrideKeyword => "OverrideKeyword"
  | ofKeyword => "OfKeyword"
  | qualifiedName => "QualifiedName"
  | computedPropertyName => "ComputedPropertyName"
  | typeParameter => "TypeParameter"
  | parameter => "Parameter"
  | decorator => "Decorator"
  | propertySignature => "PropertySignature"
  | propertyDeclaration => "PropertyDeclaration"
  | methodSignature => "MethodSignature"
  | methodDeclaration => "MethodDeclaration"
  | classStaticBlockDeclaration => "ClassStaticBlockDeclaration"
  | constructorDeclaration => "Constructor"
  | getAccessor => "GetAccessor"
  | setAccessor => "SetAccessor"
  | callSignature => "CallSignature"
  | constructSignature => "ConstructSignature"
  | indexSignature => "IndexSignature"
  | typePredicate => "TypePredicate"
  | typeReference => "TypeReference"
  | functionType => "FunctionType"
  | constructorType => "ConstructorType"
  | typeQuery => "TypeQuery"
  | typeLiteral => "TypeLiteral"
  | arrayType => "ArrayType"
  | tupleType => "TupleType"
  | optionalType => "OptionalType"
  | restType => "RestType"
  | unionType => "UnionType"
  | intersectionType => "IntersectionType"
  | conditionalType => "ConditionalType"
  | inferType => "InferType"
  | parenthesizedType => "ParenthesizedType"
  | thisType => "ThisType"
  | typeOperator => "TypeOperator"
  | indexedAccessType => "IndexedAccessType"
  | mappedType => "MappedType"
  | literalType => "LiteralType"
  | namedTupleMember => "NamedTupleMember"
  | templateLiteralType => "TemplateLiteralType"
  | templateLiteralTypeSpan => "TemplateLiteralTypeSpan"
  | importType => "ImportType"
  | objectBindingPattern => "ObjectBindingPattern"
  | arrayBindingPattern => "ArrayBindingPattern"
  | bindingElement => "BindingElement"
  | arrayLiteralExpression => "ArrayLiteralExpression"
  | objectLiteralExpression => "ObjectLiteralExpression"
  | propertyAccessExpression => "PropertyAccessExpression"
  | elementAccessExpression => "ElementAccessExpression"
  | callExpression => "CallExpression"
  | newExpression => "NewExpression"
  | taggedTemplateExpression => "TaggedTemplateExpression"
  | typeAssertionExpression => "TypeAssertionExpression"
  | parenthesizedExpression => "ParenthesizedExpression"
  | functionExpression => "FunctionExpression"
  | arrowFunction => "ArrowFunction"
  | deleteExpression => "DeleteExpression"
  | typeOfExpression => "TypeOfExpression"
  | voidExpression => "VoidExpression"
  | awaitExpression => "AwaitExpression"
  | prefixUnaryExpression => "PrefixUnaryExpression"
  | postfixUnaryExpression => "PostfixUnaryExpression"
  | binaryExpression => "BinaryExpression"
  | conditionalExpression => "ConditionalExpression"
  | templateExpression => "TemplateExpression"
  | yieldExpression => "YieldExpression"
  | spreadElement => "SpreadElement"
  | classExpression => "ClassExpression"
  | omittedExpression => "OmittedExpression"
  | expressionWithTypeArguments => "ExpressionWithTypeArguments"
  | asExpression => "AsExpression"
  | nonNullExpression => "NonNullExpression"
  | metaProperty => "MetaProperty"
  | satisfiesExpression => "SatisfiesExpression"
  | templateSpan => "TemplateSpan"
  | semicolonClassElement => "SemicolonClassElement"
  | block => "Block"
  | emptyStatement => "EmptyStatement"
  | variableStatement => "VariableStatement"
  | expressionStatement => "ExpressionStatement"
  | ifStatement => "IfStatement"
  | doStatement => "DoStatement"
  | whileStatement => "WhileStatement"
  | forStatement => "ForStatement"
  | forInStatement => "ForInStatement"
  | forOfStatement => "ForOfStatement"
  | continueStatement => "ContinueStatement"
  | breakStatement => "BreakStatement"
  | returnStatement => "ReturnStatement"
  | withStatement => "WithStatement"
  | switchStatement => "SwitchStatement"
  | labeledStatement => "LabeledStatement"
  | throwStatement => "ThrowStatement"
  | tryStatement => "TryStatement"
  | debuggerStatement => "DebuggerStatement"
  | variableDeclaration => "VariableDeclaration"
  | variableDeclarationList => "VariableDeclarationList"
  | functionDeclaration => "FunctionDeclaration"
  | classDeclaration => "ClassDeclaration"
  | interfaceDeclaration => "InterfaceDeclaration"
  | typeAliasDeclaration => "TypeAliasDeclaration"
  | enumDeclaration => "EnumDeclaration"
  | moduleDeclaration => "ModuleDeclaration"
  | moduleBlock => "ModuleBlock"
  | caseBlock => "CaseBlock"
  | namespaceExportDeclaration => "NamespaceExportDeclaration"
  | importEqualsDeclaration => "ImportEqualsDeclaration"
  | importDeclaration => "ImportDeclaration"
  | importClause => "ImportClause"
  | namespaceImport => "NamespaceImport"
  | namedImports => "NamedImports"
  | importSpecifier => "ImportSpecifier"
  | exportAssignment => "ExportAssignment"
  | exportDeclaration => "ExportDeclaration"
  | namedExports => "NamedExports"
  | namespaceExport => "NamespaceExport"
  | exportSpecifier => "ExportSpecifier"
  | missingDeclaration => "MissingDeclaration"
  | externalModuleReference => "ExternalModuleReference"
  | jsxElement => "JsxElement"
  | jsxSelfClosingElement => "JsxSelfClosingElement"
  | jsxOpeningElement => "JsxOpeningElement"
  | jsxClosingElement => "JsxClosingElement"
  | jsxFragment => "JsxFragment"
  | jsxOpeningFragment => "JsxOpeningFragment"
  | jsxClosingFragment => "JsxClosingFragment"
  | jsxAttribute => "JsxAttribute"
  | jsxAttributes => "JsxAttributes"
  | jsxSpreadAttribute => "JsxSpreadAttribute"
  | jsxExpression => "JsxExpression"
  | jsxNamespacedName => "JsxNamespacedName"
  | caseClause => "CaseClause"
  | defaultClause => "DefaultClause"
  | heritageClause => "HeritageClause"
  | catchClause => "CatchClause"
  | importAttributes => "ImportAttributes"
  | importAttribute => "ImportAttribute"
  | propertyAssignment => "PropertyAssignment"
  | shorthandPropertyAssignment => "ShorthandPropertyAssignment"
  | spreadAssignment => "SpreadAssignment"
  | enumMember => "EnumMember"
  | sourceFile => "SourceFile"
  | jsDocAllType => "JSDocAllType"
  | jsDocUnknownType => "JSDocUnknownType"
  | jsDocNullableType => "JSDocNullableType"
  | jsDocNonNullableType => "JSDocNonNullableType"
  | jsDocFunctionType => "JSDocFunctionType"

/-- The text of punctuation. -/
def punctuation : List (String × Kind) :=
  [("\x7b", .openBraceToken), ("\x7d", .closeBraceToken), ("(", .openParenToken),
    (")", .closeParenToken), ("[", .openBracketToken), ("]", .closeBracketToken),
    (".", .dotToken), ("...", .dotDotDotToken), (";", .semicolonToken), (",", .commaToken),
    ("?.", .questionDotToken), ("<", .lessThanToken), ("</", .lessThanSlashToken),
    (">", .greaterThanToken), ("<=", .lessThanEqualsToken), (">=", .greaterThanEqualsToken),
    ("==", .equalsEqualsToken), ("!=", .exclamationEqualsToken),
    ("===", .equalsEqualsEqualsToken), ("!==", .exclamationEqualsEqualsToken),
    ("=>", .equalsGreaterThanToken), ("+", .plusToken), ("-", .minusToken), ("*", .asteriskToken),
    ("**", .asteriskAsteriskToken), ("/", .slashToken), ("%", .percentToken),
    ("++", .plusPlusToken), ("--", .minusMinusToken), ("<<", .lessThanLessThanToken),
    (">>", .greaterThanGreaterThanToken), (">>>", .greaterThanGreaterThanGreaterThanToken),
    ("&", .ampersandToken), ("|", .barToken), ("^", .caretToken), ("!", .exclamationToken),
    ("~", .tildeToken), ("&&", .ampersandAmpersandToken), ("||", .barBarToken),
    ("?", .questionToken), (":", .colonToken), ("@", .atToken), ("??", .questionQuestionToken),
    ("`", .backtickToken), ("#", .hashToken), ("=", .equalsToken), ("+=", .plusEqualsToken),
    ("-=", .minusEqualsToken), ("*=", .asteriskEqualsToken),
    ("**=", .asteriskAsteriskEqualsToken), ("/=", .slashEqualsToken), ("%=", .percentEqualsToken),
    ("<<=", .lessThanLessThanEqualsToken), (">>=", .greaterThanGreaterThanEqualsToken),
    (">>>=", .greaterThanGreaterThanGreaterThanEqualsToken), ("&=", .ampersandEqualsToken),
    ("|=", .barEqualsToken), ("||=", .barBarEqualsToken), ("&&=", .ampersandAmpersandEqualsToken),
    ("??=", .questionQuestionEqualsToken), ("^=", .caretEqualsToken)]

/-- Words that are never names. -/
def reservedWords : List (String × Kind) :=
  [("break", .breakKeyword), ("case", .caseKeyword), ("catch", .catchKeyword),
    ("class", .classKeyword), ("const", .constKeyword), ("continue", .continueKeyword),
    ("debugger", .debuggerKeyword), ("default", .defaultKeyword), ("delete", .deleteKeyword),
    ("do", .doKeyword), ("else", .elseKeyword), ("enum", .enumKeyword),
    ("export", .exportKeyword), ("extends", .extendsKeyword), ("false", .falseKeyword),
    ("finally", .finallyKeyword), ("for", .forKeyword), ("function", .functionKeyword),
    ("if", .ifKeyword), ("import", .importKeyword), ("in", .inKeyword),
    ("instanceof", .instanceOfKeyword), ("new", .newKeyword), ("null", .nullKeyword),
    ("return", .returnKeyword), ("super", .superKeyword), ("switch", .switchKeyword),
    ("this", .thisKeyword), ("throw", .throwKeyword), ("true", .trueKeyword),
    ("try", .tryKeyword), ("typeof", .typeOfKeyword), ("var", .varKeyword),
    ("void", .voidKeyword), ("while", .whileKeyword), ("with", .withKeyword)]

/-- Words that are names outside strict code. -/
def strictWords : List (String × Kind) :=
  [("implements", .implementsKeyword), ("interface", .interfaceKeyword), ("let", .letKeyword),
    ("package", .packageKeyword), ("private", .privateKeyword), ("protected", .protectedKeyword),
    ("public", .publicKeyword), ("static", .staticKeyword), ("yield", .yieldKeyword)]

/-- Words that are names except where the grammar gives them a meaning. -/
def contextualWords : List (String × Kind) :=
  [("abstract", .abstractKeyword), ("accessor", .accessorKeyword), ("as", .asKeyword),
    ("asserts", .assertsKeyword), ("assert", .assertKeyword), ("any", .anyKeyword),
    ("async", .asyncKeyword), ("await", .awaitKeyword), ("boolean", .booleanKeyword),
    ("constructor", .constructorKeyword), ("declare", .declareKeyword), ("get", .getKeyword),
    ("infer", .inferKeyword), ("intrinsic", .intrinsicKeyword), ("is", .isKeyword),
    ("keyof", .keyOfKeyword), ("module", .moduleKeyword), ("namespace", .namespaceKeyword),
    ("never", .neverKeyword), ("out", .outKeyword), ("readonly", .readonlyKeyword),
    ("require", .requireKeyword), ("number", .numberKeyword), ("object", .objectKeyword),
    ("satisfies", .satisfiesKeyword), ("set", .setKeyword), ("string", .stringKeyword),
    ("symbol", .symbolKeyword), ("type", .typeKeyword), ("undefined", .undefinedKeyword),
    ("unique", .uniqueKeyword), ("unknown", .unknownKeyword), ("using", .usingKeyword),
    ("from", .fromKeyword), ("global", .globalKeyword), ("bigint", .bigIntKeyword),
    ("override", .overrideKeyword), ("of", .ofKeyword)]

def keywords : List (String × Kind) := reservedWords ++ strictWords ++ contextualWords

/-- The words proposed for a misspelled one, in the order of preference. -/
def suggestions : List String :=
  ["abstract", "accessor", "any", "asserts", "assert", "bigint", "boolean", "break", "case",
    "catch", "class", "continue", "const", "constructor", "debugger", "declare", "default",
    "delete", "else", "enum", "export", "extends", "false", "finally", "for", "from", "function",
    "get", "implements", "import", "infer", "instanceof", "interface", "intrinsic", "keyof",
    "let", "module", "namespace", "never", "new", "null", "number", "object", "package",
    "private", "protected", "public", "override", "out", "readonly", "require", "global",
    "return", "satisfies", "set", "static", "string", "super", "switch", "symbol", "this",
    "throw", "true", "try", "type", "typeof", "undefined", "unique", "unknown", "using", "var",
    "void", "while", "with", "yield", "async", "await"]

/-- The text of a token that is always written the same way. -/
def text? (k : Kind) : Option String := ((punctuation ++ keywords).find? (·.2 = k)).map (·.1)

def text (k : Kind) : String := k.text?.getD ""

def isReservedWord (k : Kind) : Bool := reservedWords.any (·.2 = k)

/-- Any word with a meaning of its own. -/
def isListedWord (k : Kind) : Bool := keywords.any (·.2 = k)

/-- A word that may be used as a name wherever names are expected. -/
def isFreeWord (k : Kind) : Bool := k.isListedWord && !k.isReservedWord

/-- A name, a private name or any word. -/
def isWord (k : Kind) : Bool := k = .identifier || k = .privateIdentifier || k.isListedWord

def isModifier : Kind → Bool
  | .abstractKeyword | .accessorKeyword | .asyncKeyword | .constKeyword | .declareKeyword
  | .defaultKeyword | .exportKeyword | .inKeyword | .publicKeyword | .privateKeyword
  | .protectedKeyword | .overrideKeyword | .readonlyKeyword | .staticKeyword | .outKeyword => true
  | _ => false

def isAssignmentOperator : Kind → Bool
  | .equalsToken | .plusEqualsToken | .minusEqualsToken | .asteriskEqualsToken
  | .asteriskAsteriskEqualsToken | .slashEqualsToken | .percentEqualsToken
  | .lessThanLessThanEqualsToken | .greaterThanGreaterThanEqualsToken
  | .greaterThanGreaterThanGreaterThanEqualsToken | .ampersandEqualsToken | .barEqualsToken
  | .barBarEqualsToken | .ampersandAmpersandEqualsToken | .questionQuestionEqualsToken
  | .caretEqualsToken => true
  | _ => false

/-- How tightly a binary operator binds; zero for what is none. -/
def precedence : Kind → Nat
  | .questionQuestionToken => 4
  | .barBarToken => 5
  | .ampersandAmpersandToken => 6
  | .barToken => 7
  | .caretToken => 8
  | .ampersandToken => 9
  | .equalsEqualsToken | .exclamationEqualsToken | .equalsEqualsEqualsToken
  | .exclamationEqualsEqualsToken => 10
  | .lessThanToken | .greaterThanToken | .lessThanEqualsToken | .greaterThanEqualsToken
  | .instanceOfKeyword | .inKeyword | .asKeyword | .satisfiesKeyword => 11
  | .lessThanLessThanToken | .greaterThanGreaterThanToken | .greaterThanGreaterThanGreaterThanToken => 12
  | .plusToken | .minusToken => 13
  | .asteriskToken | .slashToken | .percentToken => 14
  | .asteriskAsteriskToken => 15
  | _ => 0

end Kind
end LintRepair.Syntax
