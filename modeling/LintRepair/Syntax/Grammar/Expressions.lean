import LintRepair.Syntax.Grammar.Access

/-!
# Expressions

Operators, arrow functions and assignments. Whether a bracket opens the parameters of an arrow function is
found out by looking ahead and, where that does not tell, by trying.
-/
namespace LintRepair.Syntax.Grammar.Reader

variable (goals : Goals)

/-! ## Operands -/

/-- The word `super` with type arguments, which it may not have. -/
def superWord : Reader Branch := do
  let start ← here
  let word ← tokenNode
  if !(← isAt .lessThanToken) then return word
  let argsStart ← here
  match ← expressionTypeArguments? goals with
  | none => return word
  | some args =>
    complainAt argsStart .superTypeArguments
    if ← atTemplate then return word
    finish .expressionWithTypeArguments start
      (.one .expression word ++ .many .typeArguments args)

/-- The word `super`, which does not stand alone. -/
def superExpression : Reader Branch := do
  let start ← here
  let e ← superWord goals
  if ← isAtAny [.openParenToken, .dotToken, .openBracketToken] then return e
  let _ ← expectNode .dotToken .superAlone
  let name ← memberName true true true
  finish .propertyAccessExpression start (.one .expression e ++ .one .name name)

/-- A value with accesses and calls behind it. -/
def access : Reader Branch := do
  let start ← here
  let fuel ← budget
  let e ← match ← kind with
    | .importKeyword =>
      if ← thenAtAny [.openParenToken, .lessThanToken] then tokenNode
      else if ← thenAtAny [.dotToken] then do
        next
        next
        let name ← word
        finish .metaProperty start (.one .name name) fun i => { i with token := .importKeyword }
      else accesses goals start true fuel (← goals .primary)
    | .superKeyword => superExpression goals
    | _ => accesses goals start true fuel (← goals .primary)
  calls goals start fuel e

/-- The word `await` is an operator here. -/
def atAwait : Reader Bool := do
  if !(← isAt .awaitKeyword) then return false
  if (← context).awaits then return true
  thenSameLine atWordOrLiteral

/-- A value with a count up or down. -/
def update : Reader Branch := do
  let start ← here
  let k ← kind
  if k = .plusPlusToken || k = .minusMinusToken then
    next
    let e ← goals .access
    return ← finish .prefixUnaryExpression start (.one .expression e) fun i => { i with token := k }
  if (← dialect).markup && k = .lessThanToken then
    if ← thenIs (do return (← atWord) || (← isAt .greaterThanToken)) then
      return ← goals (.markup true none none false)
  let e ← goals .access
  let after ← kind
  if (after = .plusPlusToken || after = .minusMinusToken) && !(← afterLineEnd) then
    next
    finish .postfixUnaryExpression e.fullStart (.one .expression e) fun i => { i with token := after }
  else return e

/-- An operand with the operators before it. -/
def unary : Reader Branch := do
  let start ← here
  let k ← kind
  let operated (form : Kind) : Reader Branch := do
    next
    let e ← goals .unary
    finish form start (.one .expression e) fun i => { i with token := k }
  match k with
  | .plusToken | .minusToken | .tildeToken | .exclamationToken => operated .prefixUnaryExpression
  | .deleteKeyword => operated .deleteExpression
  | .typeOfKeyword => operated .typeOfExpression
  | .voidKeyword => operated .voidExpression
  | .lessThanToken => do
    if (← dialect).markup then return ← goals (.markup true none none true)
    next
    let type ← goals .type
    let _ ← expect .greaterThanToken
    let e ← goals .unary
    finish .typeAssertionExpression start (.one .type type ++ .one .expression e)
  | _ => if ← atAwait then operated .awaitExpression else update goals

/-- Operators and operands behind an operand, at most `fuel`, where the operators bind more tightly than
`level`. -/
def operationRest (level start : Nat) : Nat → Branch → Reader Branch
  | 0, left => return left
  | fuel + 1, left => do
    let k ← joinGreater
    let own := k.precedence
    let takes := if k = .asteriskAsteriskToken then level ≤ own && 0 < own else level < own
    if !takes || (k = .inKeyword && (← context).noIn) then return left
    if k = .asKeyword || k = .satisfiesKeyword then
      if ← afterLineEnd then return left
      next
      let type ← goals .type
      let form : Kind := if k = .asKeyword then .asExpression else .satisfiesExpression
      let e ← finish form left.fullStart (.one .expression left ++ .one .type type)
      operationRest level start fuel e
    else
      let operator ← tokenNode
      let right ← goals (.operation own)
      let e ← finish .binaryExpression start
        (.one .left left ++ .one .operator operator ++ .one .right right)
        fun i => { i with token := k }
      operationRest level start fuel e

/-- An operand with its own powers; an operator before a power's base needs brackets. -/
def operand : Reader Branch := do
  let start ← here
  let k ← kind
  let signed ← match k with
    | .plusToken | .minusToken | .tildeToken | .exclamationToken | .deleteKeyword | .typeOfKeyword
    | .voidKeyword | .awaitKeyword => pure true
    | .lessThanToken => pure !(← dialect).markup
    | _ => pure false
  if !signed then
    let e ← update goals
    if ← isAt .asteriskAsteriskToken then
      return ← operationRest goals Kind.asteriskAsteriskToken.precedence start (← budget) e
    return e
  let e ← unary goals
  if ← isAt .asteriskAsteriskToken then
    complainAt e.start
      (if e.kind = .typeAssertionExpression then .assertionRaised else .unaryRaised k.text)
  return e

def operation (level : Nat) : Reader Branch := do
  let start ← here
  operationRest goals level start (← budget) (← goals .operand)

/-! ## Arrow functions -/

/-- Whether an arrow function begins. -/
inductive ArrowGuess where
  | no
  | maybe
  | yes
deriving DecidableEq, Inhabited

/-- Reads past a bracket and guesses whether it opens the parameters of an arrow function. -/
def passBracket : Reader ArrowGuess := do
  let second ← nextKind
  match second with
  | .closeParenToken =>
    match ← nextKind with
    | .equalsGreaterThanToken | .colonToken | .openBraceToken => return .yes
    | _ => return .no
  | .openBracketToken | .openBraceToken => return .maybe
  | .dotDotDotToken => return .yes
  | _ =>
    if second.isModifier && second ≠ .asyncKeyword then
      if ← thenIs atName then
        return if (← nextKind) = .asKeyword then .no else .yes
    if !(← atName) && second ≠ .thisKeyword then return .no
    match ← nextKind with
    | .colonToken => return .yes
    | .questionToken =>
      match ← nextKind with
      | .colonToken | .commaToken | .equalsToken | .closeParenToken => return .yes
      | _ => return .no
    | .commaToken | .equalsToken | .closeParenToken => return .maybe
    | _ => return .no

/-- Reads past an angle bracket and guesses whether it opens the type parameters of an arrow function. -/
def passAngle : Reader ArrowGuess := do
  next
  if !(← atName) && !(← isAt .constKeyword) then return .no
  if (← dialect).markup then
    let isArrow ← peek (do
      let _ ← skip? .constKeyword
      match ← nextKind with
      | .extendsKeyword =>
        match ← nextKind with
        | .equalsToken | .greaterThanToken | .slashToken => return false
        | _ => return true
      | .commaToken | .equalsToken => return true
      | _ => return false)
    return if isArrow then .yes else .no
  return .maybe

/-- Guesses whether an arrow function with brackets begins. -/
def guessArrow : Reader ArrowGuess := do
  match ← kind with
  | .openParenToken => peek passBracket
  | .lessThanToken => peek passAngle
  | .asyncKeyword => peek (do
      next
      if ← afterLineEnd then return .no
      match ← kind with
      | .openParenToken => passBracket
      | .lessThanToken => passAngle
      | _ => return .no)
  | .equalsGreaterThanToken => return .yes
  | _ => return .no

/-- What an arrow function computes: statements in braces or an expression. -/
def arrowBody (awaits arrowTypes : Bool) : Reader Branch := do
  let form : FunctionForm := ⟨false, awaits⟩
  if ← isAt .openBraceToken then return ← functionBlock goals form false (.expected "\x7b")
  if !(← isAtAny [.semicolonToken, .functionKeyword, .classKeyword]) then
    if (← startsStatement) && !(← startsExpressionStatement) then
      return ← functionBlock goals form true (.expected "\x7b")
  within (fun c => { c with awaits }) (goals (.assignment arrowTypes))

/-- The word `async` as a modifier. -/
def asyncModifier? : Reader (Option Items) := do
  if ← isAt .asyncKeyword then
    let start ← here
    next
    let a ← finish .asyncKeyword start .none
    return some (← listed start #[a])
  else return none

/-- An arrow function whose one parameter has no brackets. -/
def simpleArrow (start : Nat) (name : Branch) (modifiers : Option Items) (arrowTypes : Bool) :
    Reader Branch := do
  let parameter ← finish .parameter name.fullStart (.one .name name)
  let parameters : Items := { nodes := [parameter], start := parameter.fullStart, stop := parameter.stop }
  let arrow ← expectToken .equalsGreaterThanToken
  let body ← arrowBody goals modifiers.isSome arrowTypes
  finish .arrowFunction start
    (.manyMaybe .modifiers modifiers ++ .many .parameters parameters ++ .one .arrow arrow
      ++ .one .body body)

/-- The result type shows that no arrow function was meant. -/
def spoilsArrow : Ast → Bool
  | .node i children =>
    match i.kind with
    | .typeReference => children.head?.any (·.isMissing)
    | .functionType | .constructorType =>
      i.lists.any (fun l => l.label = .parameters && l.missing) || anySpoils children
    | .parenthesizedType => anySpoils children
    | _ => false
where
  /-- One of the nodes, if it is a type, shows it. -/
  anySpoils : List Ast → Bool
    | [] => false
    | a :: rest => (a.info.label = .type && spoilsArrow a) || anySpoils rest

/-- The type inside brackets is the word `function` with its parameters. -/
def isFunctionWord : Ast → Bool
  | .node i children =>
    i.kind = .jsDocFunctionType || (i.kind = .parenthesizedType && anyFunctionWord children)
where
  /-- One of the nodes is. -/
  anyFunctionWord : List Ast → Bool
    | [] => false
    | a :: rest => isFunctionWord a || anyFunctionWord rest

/-- An arrow function with brackets. When `strict`, what can only be something else is none. -/
def bracketedArrow? (strict arrowTypes : Bool) : Reader (Option Branch) := do
  let start ← here
  let modifiers ← asyncModifier?
  let awaits := modifiers.isSome
  let typeParameters ← typeParameters? goals
  let opened ← expect .openParenToken
  if !opened && strict then return none
  let parameters ← if opened then parameterList? goals ⟨false, awaits⟩ strict
    else pure (some (← noItems))
  match parameters with
  | none => return none
  | some parameters =>
    if opened then
      if !(← expect .closeParenToken) && strict then return none
    let colon ← isAt .colonToken
    let type ← resultType? goals false false
    if strict && type.any spoilsArrow then return none
    let last ← kind
    if strict && last ≠ .equalsGreaterThanToken
        && (type.any isFunctionWord || last ≠ .openBraceToken) then return none
    let arrow ← expectToken .equalsGreaterThanToken
    let body ← if last = .equalsGreaterThanToken || last = .openBraceToken then
        arrowBody goals awaits arrowTypes
      else name
    if !arrowTypes && colon && !(← isAt .colonToken) then return none
    return some (← finish .arrowFunction start
      (.manyMaybe .modifiers modifiers ++ .manyMaybe .typeParameters typeParameters
        ++ .many .parameters parameters ++ .maybe .type type ++ .one .arrow arrow
        ++ .one .body body))

/-- Tries to read an arrow function with brackets, unless that has failed here before. -/
def possibleArrow? (arrowTypes : Bool) : Reader (Option Branch) := attempt do
  let place ← tokenStart
  if (← state).noArrows.contains place then return none
  match ← bracketedArrow? goals true arrowTypes with
  | some a => return some a
  | none =>
    change (fun s => { s with noArrows := place :: s.noArrows }) fun _ => ⟨rfl, rfl, List.prefix_rfl, id⟩
    return none

/-- Reads past the word `async` and tells whether an arrow function without brackets begins there. -/
def passAsync : Reader Bool := do
  next
  if ← afterLineEnd then return false
  if ← isAt .equalsGreaterThanToken then return false
  let e ← goals (.operation 0)
  return !(← afterLineEnd) && e.kind = .identifier && (← isAt .equalsGreaterThanToken)

def arrowFunction? (arrowTypes : Bool) : Reader (Option Branch) := do
  let bracketed ← match ← guessArrow with
    | .no => pure none
    | .yes => bracketedArrow? goals false true
    | .maybe => possibleArrow? goals arrowTypes
  if bracketed.isSome then return bracketed
  if !(← isAt .asyncKeyword) then return none
  if !(← peek (passAsync goals)) then return none
  let start ← here
  let modifiers ← asyncModifier?
  let name ← goals (.operation 0)
  return some (← simpleArrow goals start name modifiers arrowTypes)

/-! ## Assignments -/

/-- The word `yield` is an operator here. -/
def atYield : Reader Bool := do
  if !(← isAt .yieldKeyword) then return false
  if (← context).yields then return true
  thenSameLine atWordOrLiteral

def yieldExpression : Reader Branch := do
  let start ← here
  next
  let follows ← if ← afterLineEnd then pure false
    else if ← isAt .asteriskToken then pure true
    else startsExpression
  if follows then
    let asterisk ← tokenNode? .asteriskToken
    let e ← goals (.assignment true)
    finish .yieldExpression start (.maybe .asterisk asterisk ++ .one .expression e)
  else finish .yieldExpression start .none

/-- What may stand before an assignment operator. -/
def isAssignable : Kind → Bool
  | .propertyAccessExpression | .elementAccessExpression | .newExpression | .callExpression
  | .jsxElement | .jsxSelfClosingElement | .jsxFragment | .taggedTemplateExpression
  | .arrayLiteralExpression | .parenthesizedExpression | .objectLiteralExpression | .classExpression
  | .functionExpression | .identifier | .privateIdentifier | .regularExpressionLiteral
  | .numericLiteral | .bigIntLiteral | .stringLiteral | .noSubstitutionTemplateLiteral
  | .templateExpression | .falseKeyword | .nullKeyword | .thisKeyword | .trueKeyword | .superKeyword
  | .nonNullExpression | .expressionWithTypeArguments | .metaProperty | .importKeyword
  | .missingDeclaration => true
  | _ => false

/-- The choice between two expressions, behind its condition. -/
def conditionalRest (start : Nat) (condition : Branch) (arrowTypes : Bool) : Reader Branch := do
  match ← tokenNode? .questionToken with
  | none => return condition
  | some question =>
    let whenTrue ← within (fun c => { c with noIn := false, inDecorator := false })
      (goals (.assignment false))
    let colon ← expectToken .colonToken
    let whenFalse ← if colon.isMissing then missing .identifier (.expected ":")
      else goals (.assignment arrowTypes)
    finish .conditionalExpression start
      (.one .condition condition ++ .one .question question ++ .one .whenTrue whenTrue
        ++ .one .colon colon ++ .one .whenFalse whenFalse)

def assignment (arrowTypes : Bool) : Reader Branch := do
  if ← atYield then return ← yieldExpression goals
  match ← arrowFunction? goals arrowTypes with
  | some a => return a
  | none =>
    let start ← here
    let e ← goals (.operation 0)
    if e.kind = .identifier && (← isAt .equalsGreaterThanToken) then
      return ← simpleArrow goals start e none arrowTypes
    let k ← if isAssignable e.kind then joinGreater else pure .unknown
    if k.isAssignmentOperator then
      let operator ← tokenNode
      let right ← goals (.assignment arrowTypes)
      return ← finish .binaryExpression start
        (.one .left e ++ .one .operator operator ++ .one .right right) fun i => { i with token := k }
    conditionalRest goals start e arrowTypes

/-- Further expressions behind commas, at most `fuel`. -/
def expressionRest (start : Nat) : Nat → Branch → Reader Branch
  | 0, e => return e
  | fuel + 1, e => do
    match ← tokenNode? .commaToken with
    | none => return e
    | some comma =>
      let right ← goals (.assignment true)
      let whole ← finish .binaryExpression start
        (.one .left e ++ .one .operator comma ++ .one .right right)
        fun i => { i with token := .commaToken }
      expressionRest start fuel whole

def expression : Reader Branch := within (fun c => { c with inDecorator := false }) do
  let start ← here
  let e ← goals (.assignment true)
  expressionRest goals start (← budget) e

end LintRepair.Syntax.Grammar.Reader
