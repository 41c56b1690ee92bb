import LintRepair.Syntax.Print.Types

/-!
# Printed expressions
-/
namespace LintRepair.Syntax.Print.Printer

variable (emit : Ast → Printer Unit)

/-! ## Accesses and calls -/

/-- A number to which a dot would belong. -/
def takesDot (a : Ast) : Printer Bool := do
  if a.kind ≠ .numericLiteral then return false
  let written := (← source).slice a.start a.stop
  let marks := (Text.ofString ".eExXoObB").map fun u => written.contains u
  return !marks.any id

def propertyAccess (a : Ast) : Printer Unit := do
  let e := (a.child? .expression).getD default
  let name := (a.child? .name).getD default
  let chain := a.child? .chain
  emit e
  let before := !(← sameLine e.stop (← tokenAfter e.stop))
  let behind := !(← sameLine name.fullStart name.start)
  indentedIf before do
    if before then newLine
    match chain with
    | some mark => emit mark
    | none => do
      let p ← get
      if (← takesDot e) && !p.fresh && !p.endsInRemark then token .dotToken
      tokenOf .dotToken e.stop a
    indentedIf behind do
      if behind then newLine
      emit name

def elementAccess (a : Ast) : Printer Unit := do
  part emit a .expression
  part emit a .chain
  tokenOf .openBracketToken (endOf a [.expression]) a
  part emit a .arguments
  tokenOf .closeBracketToken (endOf a [.arguments]) a

def call (a : Ast) : Printer Unit := do
  part emit a .expression
  part emit a .chain
  typeArguments emit a
  listOf emit a .parameters .arguments

def creation (a : Ast) : Printer Unit := do
  tokenOf .newKeyword a.fullStart a
  spacedPart emit a .expression
  typeArguments emit a
  listOf emit a .parameters .arguments

def taggedTemplate (a : Ast) : Printer Unit := do
  part emit a .tag
  typeArguments emit a
  space
  part emit a .template

/-! ## Functions -/

/-- The word of a function with the star of a generator and its name. -/
def functionHead (a : Ast) : Printer Unit := do
  token .functionKeyword
  part emit a .asterisk
  space
  part emit a .name
  signature emit a

/-- One parameter that is only a name and had no brackets. -/
def isBare (a : Ast) : Bool :=
  match a.childrenOf .parameters with
  | [p] => p.fullStart = a.fullStart && !a.has .type && !a.has .modifiers && !a.has .typeParameters
      && p.children.length = 1 && (p.child? .name).any (·.kind = .identifier)
  | _ => false

def arrowFunction (a : Ast) : Printer Unit := do
  modifiersOf emit a
  typeParameters emit a
  if isBare a then listOf emit a .commas .parameters else parameters emit a
  annotated emit a
  spacedPart emit a .arrow
  match a.child? .body with
  | some body =>
    if body.kind = .block then bodyBlock emit body
    else do
      space
      emit body
  | none => pure ()

/-! ## Operators -/

def isSign (k : Kind) : Bool := k = .plusToken || k = .minusToken

/-- A sign before a sign or a step of the same sort, from which a blank keeps it apart. -/
def needsSpace (k : Kind) (operand : Ast) : Bool :=
  operand.kind = .prefixUnaryExpression &&
    ((k = .plusToken && (operand.info.token = .plusToken || operand.info.token = .plusPlusToken))
      || (k = .minusToken && (operand.info.token = .minusToken || operand.info.token = .minusMinusToken)))

def prefixed (a : Ast) : Printer Unit := do
  token a.info.token
  if (a.child? .expression).any (needsSpace a.info.token) then space
  part emit a .expression

/-- A word before an operand. -/
def worded (k : Kind) (a : Ast) : Printer Unit := do
  tokenOf k a.fullStart a
  spacedPart emit a .expression

/-- Breaks the line further in if the source does; otherwise a blank may stand there. -/
def brokenAs (broken blank : Bool) (r : Printer Unit) : Printer Unit :=
  indentedIf broken do
    if broken then newLine
    else if blank then space
    r

def binary (a : Ast) : Printer Unit := do
  let left := (a.child? .left).getD default
  let operator := (a.child? .operator).getD default
  let right := (a.child? .right).getD default
  emit left
  let before := !(← sameLine left.stop operator.start)
  let behind := !(← sameLine operator.stop right.start)
  brokenAs before (operator.kind ≠ .commaToken) do
    leadAt operator.fullStart
    token operator.kind
    trailAt operator.stop
    brokenAs behind true (emit right)

def conditional (a : Ast) : Printer Unit := do
  let at_ (l : Label) : Ast := (a.child? l).getD default
  let condition := at_ .condition
  let question := at_ .question
  let whenTrue := at_ .whenTrue
  let colon := at_ .colon
  let whenFalse := at_ .whenFalse
  let apart (x y : Ast) : Printer Bool := return !(← sameLine x.stop y.start)
  emit condition
  brokenAs (← apart condition question) true do
    emit question
    brokenAs (← apart question whenTrue) true (emit whenTrue)
  brokenAs (← apart whenTrue colon) true do
    emit colon
    brokenAs (← apart colon whenFalse) true (emit whenFalse)

/-- An expression with its type behind a word. -/
def typed (k : Kind) (a : Ast) : Printer Unit := do
  part emit a .expression
  if a.has .type then
    between k
    part emit a .type

/-! ## Members of objects -/

/-- A member's value with the comments before it. -/
def memberValue (a : Ast) : Printer Unit := do
  token .colonToken
  space
  match a.child? .initializer with
  | some value => do
    trailWith value.fullStart beforeSpace
    emit value
  | none => pure ()

def accessor (a : Ast) : Printer Unit := do
  let place ← modifiers emit a true
  tokenOf (if a.kind = .getAccessor then .getKeyword else .setKeyword) place a
  spacedPart emit a .name
  signature emit a
  bodyOrEnd emit a

def method (a : Ast) : Printer Unit := do
  modifiersOf emit a true
  part emit a .asterisk
  part emit a .name
  part emit a .question
  signature emit a
  bodyOrEnd emit a

/-- Prints an expression or a part of one. -/
def expression (a : Ast) : Printer Unit := do
  match a.kind with
  | .numericLiteral => numberLiteral a
  | .bigIntLiteral => largeLiteral a
  | .arrayLiteralExpression => listOf emit a (.elements a.info.multiLine) .elements
  | .objectLiteralExpression => do
    let keepsComma := !(← get).data
    listOf emit a { ListForm.members a.info.multiLine with keepsComma } .members
  | .propertyAccessExpression => propertyAccess emit a
  | .elementAccessExpression => elementAccess emit a
  | .callExpression => call emit a
  | .newExpression => creation emit a
  | .taggedTemplateExpression => taggedTemplate emit a
  | .typeAssertionExpression => do
    token .lessThanToken
    part emit a .type
    token .greaterThanToken
    part emit a .expression
  | .parenthesizedExpression => do
    tokenOf .openParenToken a.fullStart a
    part emit a .expression
    tokenOf .closeParenToken (endOf a [.expression]) a
  | .functionExpression => do
    modifiersOf emit a
    functionHead emit a
    bodyOrEnd emit a
  | .arrowFunction => arrowFunction emit a
  | .deleteExpression => worded emit .deleteKeyword a
  | .typeOfExpression => worded emit .typeOfKeyword a
  | .voidExpression => worded emit .voidKeyword a
  | .awaitExpression => worded emit .awaitKeyword a
  | .prefixUnaryExpression => prefixed emit a
  | .postfixUnaryExpression => do
    part emit a .expression
    token a.info.token
  | .binaryExpression => binary emit a
  | .conditionalExpression => conditional emit a
  | .templateExpression => do
    part emit a .head
    listOf emit a .pieces .spans
  | .templateSpan => do
    part emit a .expression
    part emit a .literal
  | .yieldExpression => do
    tokenOf .yieldKeyword a.fullStart a
    part emit a .asterisk
    spacedPart emit a .expression
  | .spreadElement | .spreadAssignment => do
    tokenOf .dotDotDotToken a.fullStart a
    part emit a .expression
  | .omittedExpression => pure ()
  | .expressionWithTypeArguments => do
    part emit a .expression
    typeArguments emit a
  | .asExpression => typed emit .asKeyword a
  | .satisfiesExpression => typed emit .satisfiesKeyword a
  | .nonNullExpression => do
    part emit a .expression
    token .exclamationToken
  | .metaProperty => do
    token a.info.token
    token .dotToken
    part emit a .name
  | .computedPropertyName => do
    token .openBracketToken
    part emit a .expression
    token .closeBracketToken
  | .qualifiedName => do
    part emit a .left
    token .dotToken
    part emit a .right
  | .propertyAssignment => do
    part emit a .name
    memberValue emit a
  | .shorthandPropertyAssignment => do
    part emit a .name
    if a.has .initializer then
      between .equalsToken
      part emit a .initializer
  | .getAccessor | .setAccessor => accessor emit a
  | .methodDeclaration => method emit a
  | .objectBindingPattern => do
    token .openBraceToken
    listOf emit a .objectPattern .elements
    token .closeBraceToken
  | .arrayBindingPattern => do
    token .openBracketToken
    listOf emit a .arrayPattern .elements
    token .closeBracketToken
  | .bindingElement => do
    part emit a .rest
    if a.has .propertyName then
      part emit a .propertyName
      token .colonToken
      space
    part emit a .name
    initialized emit a (endOf a [.name])
  | .parameter => do
    modifiersOf emit a true
    part emit a .rest
    part emit a .name
    part emit a .question
    annotated emit a
    initialized emit a (endOf a [.type, .question, .name])
  | .decorator => do
    token .atToken
    part emit a .expression
  | _ => type emit a

end LintRepair.Syntax.Print.Printer
