import LintRepair.Text.Basic

/-!
# What is wrong with a source text

The causes of syntax errors, each with its wording, and where they are reported.
-/
namespace LintRepair.Syntax

inductive Cause where
  -- characters and tokens
  | unterminatedString
  | unterminatedTemplate
  | unterminatedPattern
  | invalidCharacter
  | conflictMarker
  | nameAfterNumber
  | bigintExponent
  | bigintFraction
  | leadingZero
  | octalLiteral (negative : Bool) (digits : String)
  | misplacedSeparator
  | repeatedSeparator
  | hexDigitExpected
  | octalDigitExpected
  | binaryDigitExpected
  | digitExpected
  | escapeOutOfRange
  | unexpectedEnd
  | unterminatedEscape
  | octalEscape (code : Nat)
  | escapeNotAllowed (escape : String)
  | shebangInside
  | binaryFile
  | escapedKeyword
  | escapeMisplaced
  -- references of a file
  | invalidReference
  | resolutionMode
  | severalModuleNames
  -- something else was expected
  | unexpectedToken
  | expected (token : String)
  | expressionExpected
  | declarationOrStatementExpected
  | statementExpected
  | declarationExpected
  | caseOrDefaultExpected
  | catchOrFinallyExpected
  | memberExpected
  | classMemberExpected
  | enumMemberExpected
  | variableExpected
  | notVariableName (word : String)
  | propertyPatternExpected
  | elementPatternExpected
  | argumentExpected
  | propertyExpected
  | expressionOrCommaExpected
  | parameterExpected
  | notParameterName (word : String)
  | typeParameterExpected
  | typeArgumentExpected
  | typeExpected
  | openBraceExpected
  | bodyOrSemicolonExpected
  | identifierExpected
  | identifierOrStringExpected
  | reservedWord (word : String)
  | enumMemberEnd
  | propertyInitializerExpected
  | doubleQuotesExpected
  | dataExpected
  -- something is in the wrong place
  | moduleNameQuotes
  | variableMisplaced
  | interfaceName (name : String)
  | interfaceUnnamed
  | namespaceName (name : String)
  | namespaceUnnamed
  | aliasName (name : String)
  | aliasUnnamed
  | predicateMisplaced
  | misspelled (suggestion : String)
  | unexpectedWord
  | assignmentToBlock
  | lineBreakMisplaced
  | privateOutsideClass
  | privateVariable
  | privateParameter
  | privateInChain
  | decoratorAfterName
  | callBehindType
  | modifierOnThis
  | functionTypeInUnion
  | functionTypeInIntersection
  | constructorTypeInUnion
  | constructorTypeInIntersection
  | assertionRaised
  | unaryRaised (operator : String)
  | superTypeArguments
  | superAlone
  | accessAfterInstantiation
  | emptyElementAccess
  | chainFromNew (callee : String)
  -- markup
  | unclosedElement (tag : String)
  | mismatchedElement (tag : String)
  | unclosedFragment
  | mismatchedFragment
  | severalRoots
  | attributeValueExpected
  | strayGreaterThan
  | strayCloseBrace
  -- forms that only a typed file may use
  | typedModifier (modifier : String)
  | typedDeclaration (kind : String)
  | typedImportAssignment
  | typedExportAssignment
  | typedImplements
  | typedAlias
  | annotatedType
  | typedSignature
  | typedParameterModifier
  | typedTypeParameters
  | typedTypeArguments
  | typedNonNull
  | typedAssertion
  | typedSatisfaction
  | decoratorMisplaced
  | decoratorsAroundExport
deriving DecidableEq, Repr, Inhabited

namespace Cause

/-- The digits of a code of one or two hexadecimal digits. -/
def hexPair (code : Nat) : String :=
  let digits := String.ofList (Nat.toDigits 16 code)
  if digits.length < 2 then "0" ++ digits else digits

def onlyTyped (subject : String) : String := subject ++ " can only be used in TypeScript files."

def message : Cause → String
  | unterminatedString => "Unterminated string literal."
  | unterminatedTemplate => "Unterminated template literal."
  | unterminatedPattern => "Unterminated regular expression literal."
  | invalidCharacter => "Invalid character."
  | conflictMarker => "Merge conflict marker encountered."
  | nameAfterNumber => "An identifier or keyword cannot immediately follow a numeric literal."
  | bigintExponent => "A bigint literal cannot use exponential notation."
  | bigintFraction => "A bigint literal must be an integer."
  | leadingZero => "Decimals with leading zeros are not allowed."
  | octalLiteral negative digits =>
    "Octal literals are not allowed. Use the syntax '" ++ (if negative then "-" else "") ++ "0o" ++ digits ++ "'."
  | misplacedSeparator => "Numeric separators are not allowed here."
  | repeatedSeparator => "Multiple consecutive numeric separators are not permitted."
  | hexDigitExpected => "Hexadecimal digit expected."
  | octalDigitExpected => "Octal digit expected."
  | binaryDigitExpected => "Binary digit expected."
  | digitExpected => "Digit expected."
  | escapeOutOfRange =>
    "An extended Unicode escape value must be between 0x0 and 0x10FFFF inclusive."
  | unexpectedEnd => "Unexpected end of text."
  | unterminatedEscape => "Unterminated Unicode escape sequence."
  | octalEscape code =>
    "Octal escape sequences are not allowed. Use the syntax '\\x" ++ hexPair code ++ "'."
  | escapeNotAllowed escape => "Escape sequence '" ++ escape ++ "' is not allowed."
  | shebangInside => "'#!' can only be used at the start of a file."
  | binaryFile => "File appears to be binary."
  | escapedKeyword => "Keywords cannot contain escape characters."
  | escapeMisplaced => "Unicode escape sequence cannot appear here."
  | invalidReference => "Invalid 'reference' directive syntax."
  | resolutionMode => "`resolution-mode` should be either `require` or `import`."
  | severalModuleNames => "An AMD module cannot have multiple name assignments."
  | unexpectedToken => "Unexpected token."
  | expected token => "'" ++ token ++ "' expected."
  | expressionExpected => "Expression expected."
  | declarationOrStatementExpected => "Declaration or statement expected."
  | statementExpected => "Statement expected."
  | declarationExpected => "Declaration expected."
  | caseOrDefaultExpected => "'case' or 'default' expected."
  | catchOrFinallyExpected => "'catch' or 'finally' expected."
  | memberExpected => "Property or signature expected."
  | classMemberExpected =>
    "Unexpected token. A constructor, method, accessor, or property was expected."
  | enumMemberExpected => "Enum member expected."
  | variableExpected => "Variable declaration expected."
  | notVariableName word => "'" ++ word ++ "' is not allowed as a variable declaration name."
  | propertyPatternExpected => "Property destructuring pattern expected."
  | elementPatternExpected => "Array element destructuring pattern expected."
  | argumentExpected => "Argument expression expected."
  | propertyExpected => "Property assignment expected."
  | expressionOrCommaExpected => "Expression or comma expected."
  | parameterExpected => "Parameter declaration expected."
  | notParameterName word => "'" ++ word ++ "' is not allowed as a parameter name."
  | typeParameterExpected => "Type parameter declaration expected."
  | typeArgumentExpected => "Type argument expected."
  | typeExpected => "Type expected."
  | openBraceExpected => "Unexpected token. '\x7b' expected."
  | bodyOrSemicolonExpected => "'\x7b' or ';' expected."
  | identifierExpected => "Identifier expected."
  | identifierOrStringExpected => "Identifier or string literal expected."
  | reservedWord word =>
    "Identifier expected. '" ++ word ++ "' is a reserved word that cannot be used here."
  | enumMemberEnd => "An enum member name must be followed by a ',', '=', or '\x7d'."
  | propertyInitializerExpected => "Expected '=' for property initializer."
  | doubleQuotesExpected => "String literal with double quotes expected."
  | dataExpected =>
    "Property value can only be string literal, numeric literal, 'true', 'false', 'null', object literal "
      ++ "or array literal."
  | moduleNameQuotes => "Module declaration names may only use ' or \" quoted strings."
  | variableMisplaced => "Variable declaration not allowed at this location."
  | interfaceName name => "Interface name cannot be '" ++ name ++ "'."
  | interfaceUnnamed => "Interface must be given a name."
  | namespaceName name => "Namespace name cannot be '" ++ name ++ "'."
  | namespaceUnnamed => "Namespace must be given a name."
  | aliasName name => "Type alias name cannot be '" ++ name ++ "'."
  | aliasUnnamed => "Type alias must be given a name."
  | predicateMisplaced =>
    "A type predicate is only allowed in return type position for functions and methods."
  | misspelled suggestion => "Unknown keyword or identifier. Did you mean '" ++ suggestion ++ "'?"
  | unexpectedWord => "Unexpected keyword or identifier."
  | assignmentToBlock =>
    "Declaration or statement expected. This '=' follows a block of statements, so if you intended "
      ++ "to write a destructuring assignment, you might need to wrap the whole assignment in "
      ++ "parentheses."
  | lineBreakMisplaced => "Line break not permitted here."
  | privateOutsideClass => "Private identifiers are not allowed outside class bodies."
  | privateVariable => "Private identifiers are not allowed in variable declarations."
  | privateParameter => "Private identifiers cannot be used as parameters."
  | privateInChain => "An optional chain cannot contain private identifiers."
  | decoratorAfterName =>
    "Decorators must precede the name and all keywords of property declarations."
  | callBehindType => "Cannot start a function call in a type annotation."
  | modifierOnThis => "Neither decorators nor modifiers may be applied to 'this' parameters."
  | functionTypeInUnion =>
    "Function type notation must be parenthesized when used in a union type."
  | functionTypeInIntersection =>
    "Function type notation must be parenthesized when used in an intersection type."
  | constructorTypeInUnion =>
    "Constructor type notation must be parenthesized when used in a union type."
  | constructorTypeInIntersection =>
    "Constructor type notation must be parenthesized when used in an intersection type."
  | assertionRaised =>
    "A type assertion expression is not allowed in the left-hand side of an exponentiation "
      ++ "expression. Consider enclosing the expression in parentheses."
  | unaryRaised operator =>
    "An unary expression with the '" ++ operator ++ "' operator is not allowed in the left-hand "
      ++ "side of an exponentiation expression. Consider enclosing the expression in parentheses."
  | superTypeArguments => "'super' may not use type arguments."
  | superAlone => "'super' must be followed by an argument list or member access."
  | accessAfterInstantiation =>
    "An instantiation expression cannot be followed by a property access."
  | emptyElementAccess => "An element access expression should take an argument."
  | chainFromNew callee =>
    "Invalid optional chain from new expression. Did you mean to call '" ++ callee ++ "()'?"
  | unclosedElement tag => "JSX element '" ++ tag ++ "' has no corresponding closing tag."
  | mismatchedElement tag => "Expected corresponding JSX closing tag for '" ++ tag ++ "'."
  | unclosedFragment => "JSX fragment has no corresponding closing tag."
  | mismatchedFragment => "Expected corresponding closing tag for JSX fragment."
  | severalRoots => "JSX expressions must have one parent element."
  | attributeValueExpected => "'\x7b' or JSX element expected."
  | strayGreaterThan => "Unexpected token. Did you mean `\x7b'>'\x7d` or `&gt;`?"
  | strayCloseBrace => "Unexpected token. Did you mean `\x7b'\x7d'\x7d` or `&rbrace;`?"
  | typedModifier modifier => onlyTyped ("The '" ++ modifier ++ "' modifier")
  | typedDeclaration kind => onlyTyped ("'" ++ kind ++ "' declarations")
  | typedImportAssignment => onlyTyped "'import ... ='"
  | typedExportAssignment => onlyTyped "'export ='"
  | typedImplements => onlyTyped "'implements' clauses"
  | typedAlias => onlyTyped "Type aliases"
  | annotatedType => onlyTyped "Type annotations"
  | typedSignature => onlyTyped "Signature declarations"
  | typedParameterModifier => onlyTyped "Parameter modifiers"
  | typedTypeParameters => onlyTyped "Type parameter declarations"
  | typedTypeArguments => onlyTyped "Type arguments"
  | typedNonNull => onlyTyped "Non-null assertions"
  | typedAssertion => onlyTyped "Type assertion expressions"
  | typedSatisfaction => onlyTyped "Type satisfaction expressions"
  | decoratorMisplaced => "Decorators are not valid here."
  | decoratorsAroundExport =>
    "Decorators may not appear after 'export' or 'export default' if they also appear before 'export'."

/-- The number under which a cause is known. -/
def number : Cause → Nat
  | unterminatedString => 1002
  | unterminatedTemplate => 1160
  | unterminatedPattern => 1161
  | invalidCharacter => 1127
  | conflictMarker => 1185
  | nameAfterNumber => 1351
  | bigintExponent => 1352
  | bigintFraction => 1353
  | leadingZero => 1489
  | octalLiteral .. => 1121
  | misplacedSeparator => 6188
  | repeatedSeparator => 6189
  | hexDigitExpected => 1125
  | octalDigitExpected => 1178
  | binaryDigitExpected => 1177
  | digitExpected => 1124
  | escapeOutOfRange => 1198
  | unexpectedEnd => 1126
  | unterminatedEscape => 1199
  | octalEscape _ => 1487
  | escapeNotAllowed _ => 1488
  | shebangInside => 18026
  | binaryFile => 1490
  | escapedKeyword => 1260
  | escapeMisplaced => 17021
  | invalidReference => 1084
  | resolutionMode => 1453
  | severalModuleNames => 2458
  | unexpectedToken => 1012
  | expected _ => 1005
  | expressionExpected => 1109
  | declarationOrStatementExpected => 1128
  | statementExpected => 1129
  | declarationExpected => 1146
  | caseOrDefaultExpected => 1130
  | catchOrFinallyExpected => 1472
  | memberExpected => 1131
  | classMemberExpected => 1068
  | enumMemberExpected => 1132
  | variableExpected => 1134
  | notVariableName _ => 1389
  | propertyPatternExpected => 1180
  | elementPatternExpected => 1181
  | argumentExpected => 1135
  | propertyExpected => 1136
  | expressionOrCommaExpected => 1137
  | parameterExpected => 1138
  | notParameterName _ => 1390
  | typeParameterExpected => 1139
  | typeArgumentExpected => 1140
  | typeExpected => 1110
  | openBraceExpected => 1179
  | bodyOrSemicolonExpected => 1144
  | identifierExpected => 1003
  | identifierOrStringExpected => 1478
  | reservedWord _ => 1359
  | enumMemberEnd => 1357
  | propertyInitializerExpected => 1442
  | doubleQuotesExpected => 1327
  | dataExpected => 1328
  | moduleNameQuotes => 1443
  | variableMisplaced => 1440
  | interfaceName _ => 2427
  | interfaceUnnamed => 1438
  | namespaceName _ => 2819
  | namespaceUnnamed => 1437
  | aliasName _ => 2457
  | aliasUnnamed => 1439
  | predicateMisplaced => 1228
  | misspelled _ => 1435
  | unexpectedWord => 1434
  | assignmentToBlock => 2809
  | lineBreakMisplaced => 1142
  | privateOutsideClass => 18016
  | privateVariable => 18029
  | privateParameter => 18009
  | privateInChain => 18030
  | decoratorAfterName => 1436
  | callBehindType => 1441
  | modifierOnThis => 1433
  | functionTypeInUnion => 1385
  | functionTypeInIntersection => 1387
  | constructorTypeInUnion => 1386
  | constructorTypeInIntersection => 1388
  | assertionRaised => 17007
  | unaryRaised _ => 17006
  | superTypeArguments => 2754
  | superAlone => 1034
  | accessAfterInstantiation => 1477
  | emptyElementAccess => 1011
  | chainFromNew _ => 1209
  | unclosedElement _ => 17008
  | mismatchedElement _ => 17002
  | unclosedFragment => 17014
  | mismatchedFragment => 17015
  | severalRoots => 2657
  | attributeValueExpected => 1145
  | strayGreaterThan => 1382
  | strayCloseBrace => 1381
  | typedModifier _ => 8009
  | typedDeclaration _ => 8006
  | typedImportAssignment => 8002
  | typedExportAssignment => 8003
  | typedImplements => 8005
  | typedAlias => 8008
  | annotatedType => 8010
  | typedSignature => 8017
  | typedParameterModifier => 8012
  | typedTypeParameters => 8004
  | typedTypeArguments => 8011
  | typedNonNull => 8013
  | typedAssertion => 8016
  | typedSatisfaction => 8037
  | decoratorMisplaced => 1206
  | decoratorsAroundExport => 8038

end Cause

/-- A cause at the place where it is reported. -/
structure Complaint where
  start : Nat
  cause : Cause
  /-- No character is pointed at, only the place. -/
  empty : Bool := false
deriving DecidableEq, Repr, Inhabited

namespace Complaint

def of (start : Nat) (cause : Cause) : Complaint := { start, cause }

/-- Complaints are ordered by place; of two at one place, one that points at no character comes first, then
the one with the lower number. -/
def notAfter (a b : Complaint) : Bool :=
  if a.start ≠ b.start then a.start < b.start
  else if a.empty ≠ b.empty then a.empty
  else if a.cause.number ≠ b.cause.number then a.cause.number < b.cause.number
  else a.cause.message ≤ b.cause.message

end Complaint

end LintRepair.Syntax
