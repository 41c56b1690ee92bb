import LintRepair.Syntax.Grammar.Bindings

/-!
# Types
-/
namespace LintRepair.Syntax.Grammar.Reader

variable (goals : Goals)

/-- The type arguments behind a name, on its line. -/
def typeArgumentsOfName : Reader (Option Items) := do
  if ← afterLineEnd then return none
  if (← splitLess) = .lessThanToken then return some (← typeArguments goals) else return none

def typeReference : Reader Branch := do
  let start ← here
  let name ← dottedName true (some .typeExpected)
  let args ← typeArgumentsOfName goals
  finish .typeReference start (.one .name name ++ .manyMaybe .typeArguments args)

/-- A word that is a type by itself, unless a dot follows. -/
def wordType? : Reader (Option Branch) := attempt do
  let a ← tokenNode
  if ← isAt .dotToken then return none else return some a

def literalType (negative : Bool) : Reader Branch := do
  let start ← here
  if negative then next
  let value ← literal
  let value ← if negative then
      finish .prefixUnaryExpression start (.one .expression value) fun i => { i with token := .minusToken }
    else pure value
  finish .literalType start (.one .literal value)

/-- Type with a mark before it or behind it. -/
def markedType (k : Kind) (start : Nat) (type : Branch) : Reader Branch := finish k start (.one .type type)

/-- A type that a question mark begins. -/
def questionType : Reader Branch := do
  let start ← here
  next
  if ← isAtAny [.commaToken, .closeBraceToken, .closeParenToken, .greaterThanToken, .equalsToken,
    .barToken] then finish .jsDocUnknownType start .none
  else
    let type ← goals .type
    markedType .jsDocNullableType start type

/-- The word `function` as a type. -/
def functionWordType : Reader Branch := do
  let start ← here
  let opened ← attemptIf (do
    next
    isAt .openParenToken)
  if opened then
    let parameters ← parameters goals {}
    let type ← resultType? goals false false
    finish .jsDocFunctionType start (.many .parameters parameters ++ .maybe .type type)
  else
    let name ← word
    finish .typeReference start (.one .name name)

def typeQuery : Reader Branch := do
  let start ← here
  let _ ← expect .typeOfKeyword
  let name ← dottedName true none
  let args ← if ← afterLineEnd then pure none else typeArguments? goals
  finish .typeQuery start (.one .name name ++ .manyMaybe .typeArguments args)

/-- One attribute of an import. -/
def importAttribute : Reader Branch := do
  let start ← here
  let name ← if ← atWord then word else literal
  let _ ← expect .colonToken
  let value ← goals (.assignment true)
  finish .importAttribute start (.one .name name ++ .one .initializer value)

/-- The attributes of an import in braces, behind the word before them. -/
def importAttributes (word : Kind) (behindWord : Bool) : Reader Branch := do
  let start ← here
  if !behindWord then
    let _ ← expect word
  if ← expect .openBraceToken then
    let multiLine ← afterLineEnd
    let elements ← commaList .importAttributes (importAttribute goals) true
    let _ ← expect .closeBraceToken
    finish .importAttributes start (.many .elements elements) fun i => { i with token := word, multiLine }
  else
    let elements ← noItems
    finish .importAttributes start (.many .elements elements) fun i => { i with token := word }

def importType : Reader Branch := do
  let start ← here
  let typeOnly ← skip? .typeOfKeyword
  let _ ← expect .importKeyword
  let _ ← expect .openParenToken
  let argument ← goals .type
  let attributes ← if ← skip? .commaToken then do
      let _ ← expect .openBraceToken
      let word ← kind
      if word = .withKeyword || word = .assertKeyword then next else complain (.expected "with")
      let _ ← expect .colonToken
      let attributes ← importAttributes goals word true
      let _ ← skip? .commaToken
      let _ ← expect .closeBraceToken
      pure (some attributes)
    else pure none
  let _ ← expect .closeParenToken
  let qualifier ← if ← skip? .dotToken then pure (some (← dottedName true (some .typeExpected)))
    else pure none
  let args ← typeArgumentsOfName goals
  finish .importType start
    (.one .literal argument ++ .maybe .attributes attributes ++ .maybe .qualifier qualifier
      ++ .manyMaybe .typeArguments args) fun i => { i with typeOnly }

/-- Reads past a brace and tells whether a mapped type begins there. -/
def passMapped : Reader Bool := do
  next
  if ← isAtAny [.plusToken, .minusToken] then return (← nextKind) = .readonlyKeyword
  if ← isAt .readonlyKeyword then next
  if !(← isAt .openBracketToken) then return false
  next
  if !(← atName) then return false
  return (← nextKind) = .inKeyword

def mappedParameter : Reader Branch := do
  let start ← here
  let name ← word
  let _ ← expect .inKeyword
  let type ← goals .type
  finish .typeParameter start (.one .name name ++ .one .constraint type)

/-- A mark that may have a sign before it. -/
def signed? (k : Kind) : Reader (Option Branch) := do
  if ← isAtAny [k, .plusToken, .minusToken] then
    let a ← tokenNode
    if a.kind ≠ k then
      let _ ← expect k
    return some a
  else return none

def mappedType : Reader Branch := do
  let start ← here
  let _ ← expect .openBraceToken
  let readonly ← signed? .readonlyKeyword
  let _ ← expect .openBracketToken
  let parameter ← mappedParameter goals
  let nameType ← if ← skip? .asKeyword then pure (some (← goals .type)) else pure none
  let _ ← expect .closeBracketToken
  let question ← signed? .questionToken
  let type ← annotation? goals
  endStatement
  let members ← list .typeMembers (typeMember goals)
  let _ ← expect .closeBraceToken
  finish .mappedType start
    (.maybe .readonly readonly ++ .one .typeParameters parameter ++ .maybe .nameType nameType
      ++ .maybe .question question ++ .maybe .type type ++ .many .members members)

/-- A type of a tuple's element without a name. -/
def tupleType : Reader Branch := do
  let start ← here
  if ← skip? .dotDotDotToken then
    let type ← goals .type
    return ← markedType .restType start type
  let type ← goals .type
  match type.children with
  | [inner] =>
    if type.kind = .jsDocNullableType && type.fullStart = inner.fullStart then
      return .node { type.info with kind := .optionalType } [inner]
    else return type
  | _ => return type

/-- Reads past the name of a tuple's element and tells whether there is one. -/
def passElementName : Reader Bool := do
  if ← isAt .dotDotDotToken then next
  if !(← atWord) then return false
  match ← nextKind with
  | .colonToken => return true
  | .questionToken => return (← nextKind) = .colonToken
  | _ => return false

def tupleElement : Reader Branch := do
  if ← peek passElementName then
    let start ← here
    let rest ← tokenNode? .dotDotDotToken
    let name ← word
    let question ← tokenNode? .questionToken
    let _ ← expect .colonToken
    let type ← tupleType goals
    finish .namedTupleMember start
      (.maybe .rest rest ++ .one .name name ++ .maybe .question question ++ .one .type type)
  else tupleType goals

def thisType : Reader Branch := do
  let start ← here
  next
  finish .thisType start .none

def assertsPredicate : Reader Branch := do
  let start ← here
  let asserts ← expectToken .assertsKeyword
  let subject ← if ← isAt .thisKeyword then thisType else name
  let type ← if ← skip? .isKeyword then pure (some (← goals .type)) else pure none
  finish .typePredicate start (.one .asserts asserts ++ .one .name subject ++ .maybe .type type)

/-- A type without marks behind it. -/
def plainType : Reader Branch := do
  let start ← here
  match ← kind with
  | .anyKeyword | .unknownKeyword | .stringKeyword | .numberKeyword | .bigIntKeyword
  | .symbolKeyword | .booleanKeyword | .undefinedKeyword | .neverKeyword | .objectKeyword => do
    match ← wordType? with
    | some a => return a
    | none => typeReference goals
  | .asteriskEqualsToken => do
    cutTo .asteriskToken rfl
    next
    finish .jsDocAllType start .none
  | .asteriskToken => do
    next
    finish .jsDocAllType start .none
  | .questionQuestionToken => do
    cutTo .questionToken rfl
    questionType goals
  | .questionToken => questionType goals
  | .functionKeyword => functionWordType goals
  | .exclamationToken => do
    next
    let type ← goals .typeOperand
    markedType .jsDocNonNullableType start type
  | .noSubstitutionTemplateLiteral | .stringLiteral | .numericLiteral | .bigIntLiteral
  | .trueKeyword | .falseKeyword | .nullKeyword => literalType false
  | .minusToken => do
    if ← thenAtAny [.numericLiteral, .bigIntLiteral] then literalType true else typeReference goals
  | .voidKeyword => tokenNode
  | .thisKeyword => do
    let subject ← thisType
    if (← isAt .isKeyword) && !(← afterLineEnd) then
      next
      let type ← goals .type
      finish .typePredicate start (.one .name subject ++ .one .type type)
    else return subject
  | .typeOfKeyword => do
    if ← thenAtAny [.importKeyword] then importType goals else typeQuery goals
  | .openBraceToken => do
    if ← peek passMapped then mappedType goals
    else
      let members ← typeMembers goals
      finish .typeLiteral start (.many .members members)
  | .openBracketToken => do
    let elements ← bracketed .tupleElements (tupleElement goals) .openBracketToken .closeBracketToken
    finish .tupleType start (.many .elements elements)
  | .openParenToken => do
    next
    let type ← goals .type
    let _ ← expect .closeParenToken
    markedType .parenthesizedType start type
  | .importKeyword => importType goals
  | .assertsKeyword => do
    let isPredicate ← thenSameLine (do return (← atName) || (← isAt .thisKeyword))
    if isPredicate then assertsPredicate goals else typeReference goals
  | .templateHead =>
    templateOf .templateLiteralType .templateLiteralTypeSpan false .type (goals .type)
  | _ => typeReference goals

/-- Marks and brackets behind a type, at most `fuel`. -/
def typeRest (start : Nat) : Nat → Branch → Reader Branch
  | 0, type => return type
  | fuel + 1, type => do
    if ← afterLineEnd then return type
    match ← kind with
    | .exclamationToken =>
      next
      typeRest start fuel (← markedType .jsDocNonNullableType start type)
    | .questionToken =>
      if ← thenIs startsType then return type
      next
      typeRest start fuel (← markedType .jsDocNullableType start type)
    | .openBracketToken =>
      next
      if ← startsType then
        let index ← goals .type
        let _ ← expect .closeBracketToken
        let whole ← finish .indexedAccessType start (.one .type type ++ .one .right index)
        typeRest start fuel whole
      else
        let _ ← expect .closeBracketToken
        typeRest start fuel (← markedType .arrayType start type)
    | _ => return type

def inferType : Reader Branch := do
  let start ← here
  let _ ← expect .inferKeyword
  let parameterStart ← here
  let name ← name
  let bound ← attempt (do
    if !(← skip? .extendsKeyword) then return none
    let type ← within (fun c => { c with noConditional := true }) (goals .type)
    if (← context).noConditional || !(← isAt .questionToken) then return some type else return none)
  let parameter ← finish .typeParameter parameterStart (.one .name name ++ .maybe .constraint bound)
  finish .inferType start (.one .typeParameters parameter)

/-- A type with the operators before it. -/
def typeOperand : Reader Branch := do
  let start ← here
  let k ← kind
  match k with
  | .keyOfKeyword | .uniqueKeyword | .readonlyKeyword => do
    next
    let type ← goals .typeOperand
    finish .typeOperator start (.one .type type) fun i => { i with token := k }
  | .inferKeyword => inferType goals
  | _ => within (fun c => { c with noConditional := false }) (do
      let type ← plainType goals
      typeRest goals start (← budget) type)

/-- Reads past the start of a parameter. -/
def passParameter : Reader Bool := do
  if (← kind).isModifier then
    let _ ← modifiers goals false
  if (← atName) || (← isAt .thisKeyword) then
    next
    return true
  if ← isAtAny [.openBracketToken, .openBraceToken] then
    let before := (← state).complaints.size
    let _ ← goals (.pattern .privateOutsideClass)
    return before = (← state).complaints.size
  return false

/-- The type of a function, and no type in brackets, begins at a bracket. -/
def startsFunctionBracket : Reader Bool := peek do
  next
  if ← isAtAny [.closeParenToken, .dotDotDotToken] then return true
  if ← passParameter goals then
    if ← isAtAny [.colonToken, .commaToken, .questionToken, .equalsToken] then return true
    if ← isAt .closeParenToken then return (← nextKind) = .equalsGreaterThanToken
  return false

def startsFunctionType : Reader Bool := do
  match ← kind with
  | .lessThanToken => return true
  | .openParenToken => startsFunctionBracket goals
  | .newKeyword => return true
  | .abstractKeyword => thenAtAny [.newKeyword]
  | _ => return false

def functionType : Reader Branch := do
  let start ← here
  let modifiers ← if ← isAt .abstractKeyword then do
      next
      let a ← finish .abstractKeyword start .none
      pure (some (← listed start #[a]))
    else pure none
  let constructs ← skip? .newKeyword
  let typeParameters ← typeParameters? goals
  let parameters ← parameters goals {}
  let type ← resultType? goals true false
  let back := Parts.manyMaybe .typeParameters typeParameters ++ .many .parameters parameters
    ++ .maybe .type type
  if constructs then finish .constructorType start (.manyMaybe .modifiers modifiers ++ back)
  else finish .functionType start back

/-- The type of a function where it needs brackets around it. -/
def bareFunctionType? (union : Bool) : Reader (Option Branch) := do
  if !(← startsFunctionType goals) then return none
  let type ← functionType goals
  complainAt type.fullStart (match type.kind, union with
    | .functionType, true => .functionTypeInUnion
    | .functionType, false => .functionTypeInIntersection
    | _, true => .constructorTypeInUnion
    | _, false => .constructorTypeInIntersection)
  return some type

def joinedRest (operator : Kind) (operand : Reader Branch) : Nat → Array Branch → Reader (Array Branch)
  | 0, acc => return acc
  | fuel + 1, acc => do
    if ← skip? operator then
      match ← bareFunctionType? goals (operator = .barToken) with
      | some a => joinedRest operator operand fuel (acc.push a)
      | none => joinedRest operator operand fuel (acc.push (← operand))
    else return acc

/-- Types with an operator between them, and perhaps before them. -/
def joinedTypes (k operator : Kind) (operand : Reader Branch) : Reader Branch := do
  let start ← here
  let leads ← skip? operator
  let bare ← if leads then bareFunctionType? goals (operator = .barToken) else pure none
  let first ← match bare with
    | some a => pure a
    | none => operand
  if leads || (← isAt operator) then
    let types ← joinedRest goals operator operand (← budget) #[first]
    let items ← listed start types
    finish k start (.many .elements items)
  else return first

def unionType : Reader Branch :=
  joinedTypes goals .unionType .barToken
    (joinedTypes goals .intersectionType .ampersandToken (goals .typeOperand))

def type : Reader Branch := within (fun c => { c with yields := false, awaits := false }) do
  if ← startsFunctionType goals then return ← functionType goals
  let start ← here
  let checked ← unionType goals
  let mayBranch := !(← context).noConditional && !(← afterLineEnd)
  if ← (if mayBranch then skip? .extendsKeyword else pure false) then
    let conditional (allowed : Bool) : Reader Branch :=
      within (fun c => { c with noConditional := !allowed }) (goals .type)
    let bound ← conditional false
    let _ ← expect .questionToken
    let whenTrue ← conditional true
    let _ ← expect .colonToken
    let whenFalse ← conditional true
    finish .conditionalType start
      (.one .type checked ++ .one .constraint bound ++ .one .whenTrue whenTrue
        ++ .one .whenFalse whenFalse)
  else return checked

end LintRepair.Syntax.Grammar.Reader
