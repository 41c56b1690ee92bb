import LintRepair.Syntax.Print.Parts

/-!
# Printed types
-/
namespace LintRepair.Syntax.Print.Printer

variable (emit : Ast → Printer Unit)

def typeParameter (a : Ast) : Printer Unit := do
  modifiersOf emit a
  part emit a .name
  if a.has .constraint then
    between .extendsKeyword
    part emit a .constraint
  if a.has .default then
    between .equalsToken
    part emit a .default

/-- The type of a function behind its parameters. -/
def arrowType (a : Ast) : Printer Unit := do
  typeParameters emit a
  parameters emit a
  between .equalsGreaterThanToken
  part emit a .type

def mappedType (a : Ast) : Printer Unit := do
  token .openBraceToken
  newLine
  indented do
    match a.child? .readonly with
    | some mark => do
      emit mark
      if mark.kind ≠ .readonlyKeyword then token .readonlyKeyword
      space
    | none => pure ()
    token .openBracketToken
    match a.child? .typeParameters with
    | some p => commented p (do
      part emit p .name
      between .inKeyword
      part emit p .constraint)
    | none => pure ()
    if a.has .nameType then
      between .asKeyword
      part emit a .nameType
    token .closeBracketToken
    match a.child? .question with
    | some mark => do
      emit mark
      if mark.kind ≠ .questionToken then token .questionToken
    | none => pure ()
    token .colonToken
    space
    part emit a .type
    semicolon
    newLine
  listOf emit a { breaks := .kept false, spaced := false } .members
  token .closeBraceToken

def tupleType (a : Ast) : Printer Unit := do
  tokenOf .openBracketToken a.fullStart a
  listOf emit a .tuple .elements
  tokenOf .closeBracketToken (((a.list? .elements).map (·.stop)).getD a.stop) a

def importType (a : Ast) : Printer Unit := do
  if a.info.typeOnly then
    token .typeOfKeyword
    space
  token .importKeyword
  token .openParenToken
  part emit a .literal
  match a.child? .attributes with
  | some with_ => do
    token .commaToken
    space
    token .openBraceToken
    space
    token with_.info.token
    token .colonToken
    space
    listOf emit with_ .attributes .elements
    space
    token .closeBraceToken
  | none => pure ()
  token .closeParenToken
  if a.has .qualifier then
    token .dotToken
    part emit a .qualifier
  typeArguments emit a

def predicate (a : Ast) : Printer Unit := do
  if a.has .asserts then
    part emit a .asserts
    space
  part emit a .name
  if a.has .type then
    between .isKeyword
    part emit a .type

/-- A type with marks around it. -/
def marked (before : Option Kind) (a : Ast) (behind : Option Kind) : Printer Unit := do
  before.forM token
  part emit a .type
  behind.forM token

/-- Prints a type. -/
def type (a : Ast) : Printer Unit := do
  match a.kind with
  | .typeParameter => typeParameter emit a
  | .typePredicate => predicate emit a
  | .typeReference => do
    part emit a .name
    typeArguments emit a
  | .functionType => arrowType emit a
  | .constructorType => do
    modifiersOf emit a
    token .newKeyword
    space
    arrowType emit a
  | .typeQuery => do
    token .typeOfKeyword
    spacedPart emit a .name
    typeArguments emit a
  | .typeLiteral => bracedMembers emit a .typeMembers
  | .arrayType => do
    part emit a .type
    token .openBracketToken
    token .closeBracketToken
  | .tupleType => tupleType emit a
  | .optionalType => marked emit none a (some .questionToken)
  | .restType => marked emit (some .dotDotDotToken) a none
  | .namedTupleMember => do
    part emit a .rest
    part emit a .name
    part emit a .question
    tokenOf .colonToken (endOf a [.name]) a
    spacedPart emit a .type
  | .unionType => listOf emit a (.joined .barToken) .elements
  | .intersectionType => listOf emit a (.joined .ampersandToken) .elements
  | .conditionalType => do
    part emit a .type
    between .extendsKeyword
    part emit a .constraint
    between .questionToken
    part emit a .whenTrue
    between .colonToken
    part emit a .whenFalse
  | .inferType => do
    token .inferKeyword
    spacedPart emit a .typeParameters
  | .parenthesizedType => marked emit (some .openParenToken) a (some .closeParenToken)
  | .thisType => token .thisKeyword
  | .typeOperator => do
    token a.info.token
    spacedPart emit a .type
  | .indexedAccessType => do
    part emit a .type
    token .openBracketToken
    part emit a .right
    token .closeBracketToken
  | .mappedType => mappedType emit a
  | .literalType => part emit a .literal
  | .templateLiteralType => do
    part emit a .head
    listOf emit a .pieces .spans
  | .templateLiteralTypeSpan => do
    part emit a .type
    part emit a .literal
  | .importType => importType emit a
  | .jsDocAllType => token .asteriskToken
  | .jsDocUnknownType => token .questionToken
  | .jsDocNullableType => marked emit (some .questionToken) a none
  | .jsDocNonNullableType => marked emit (some .exclamationToken) a none
  | .jsDocFunctionType => do
    token .functionKeyword
    parameters emit a
    annotated emit a
  | _ => verbatim a

end LintRepair.Syntax.Print.Printer
