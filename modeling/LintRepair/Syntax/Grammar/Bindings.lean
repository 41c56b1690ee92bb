import LintRepair.Syntax.Grammar.Names

/-!
# Patterns, parameters and signatures

What functions, methods and types of functions have in common.
-/
namespace LintRepair.Syntax.Grammar.Reader

variable (goals : Goals)

/-! ## Patterns -/

def arrayPatternElement : Reader Branch := do
  let start ← here
  if ← isAt .commaToken then return ← finish .omittedExpression start .none
  let rest ← tokenNode? .dotDotDotToken
  let name ← goals (.pattern .privateOutsideClass)
  let value ← initializer? goals
  finish .bindingElement start (.maybe .rest rest ++ .one .name name ++ .maybe .initializer value)

def objectPatternElement : Reader Branch := do
  let start ← here
  let rest ← tokenNode? .dotDotDotToken
  let isName ← atDeclaredName
  let key ← propertyName goals
  if isName && !(← isAt .colonToken) then
    let value ← initializer? goals
    finish .bindingElement start (.maybe .rest rest ++ .one .name key ++ .maybe .initializer value)
  else
    let _ ← expect .colonToken
    let name ← goals (.pattern .privateOutsideClass)
    let value ← initializer? goals
    finish .bindingElement start
      (.maybe .rest rest ++ .one .propertyName key ++ .one .name name ++ .maybe .initializer value)

def objectPattern : Reader Branch := do
  let start ← here
  let _ ← expect .openBraceToken
  let elements ← allowingIn (commaList .objectPattern (objectPatternElement goals))
  let _ ← expect .closeBraceToken
  finish .objectBindingPattern start (.many .elements elements)

def arrayPattern : Reader Branch := do
  let start ← here
  let _ ← expect .openBracketToken
  let elements ← allowingIn (commaList .arrayPattern (arrayPatternElement goals))
  let _ ← expect .closeBracketToken
  finish .arrayBindingPattern start (.many .elements elements)

/-- A declared name or a pattern. -/
def pattern (onPrivate : Cause) : Reader Branch := do
  match ← kind with
  | .openBracketToken => arrayPattern goals
  | .openBraceToken => objectPattern goals
  | _ => declaredName (some onPrivate)

/-! ## Type parameters and arguments -/

def typeParameter : Reader Branch := do
  let start ← here
  let modifiers ← modifiers goals false true
  let name ← name
  let (bound, wrong) : Option Branch × Option Branch ←
    if ← skip? .extendsKeyword then
      if (← startsType) || !(← startsExpression) then pure (some (← goals .type), none)
      else pure (none, some (← goals .operand))
    else pure (none, none)
  let default ← if ← skip? .equalsToken then pure (some (← goals .type)) else pure none
  finish .typeParameter start
    (.manyMaybe .modifiers modifiers ++ .one .name name ++ .maybe .constraint bound
      ++ .maybe .default default ++ .maybe .expression wrong)

def typeParameters? : Reader (Option Items) := do
  if ← isAt .lessThanToken then
    return some (← bracketed .typeParameters (typeParameter goals) .lessThanToken .greaterThanToken)
  else return none

def typeArguments : Reader Items :=
  bracketed .typeArguments (goals .type) .lessThanToken .greaterThanToken

def typeArguments? : Reader (Option Items) := do
  if ← isAt .lessThanToken then return some (← typeArguments goals) else return none

/-! ## Parameters -/

/-- A parameter. When `strict`, what can only be something else is none. -/
def parameter? (outerAwaits strict : Bool) : Reader (Option Branch) := do
  let start ← here
  let modifiers ← within (fun c => { c with awaits := outerAwaits }) (modifiers goals true)
  if ← isAt .thisKeyword then
    let name ← takeName
    let type ← annotation? goals
    match modifiers.bind (·.nodes.head?) with
    | some m => complainAt m.fullStart .modifierOnThis
    | none => pure ()
    return some (← finish .parameter start
      (.manyMaybe .modifiers modifiers ++ .one .name name ++ .maybe .type type))
  let rest ← tokenNode? .dotDotDotToken
  if strict && !((← atDeclaredName) || (← isAtAny [.openBracketToken, .openBraceToken])) then
    return none
  let name ← goals (.pattern .privateParameter)
  if name.fullStart = name.stop && modifiers.isNone && (← kind).isModifier then next
  let question ← tokenNode? .questionToken
  let type ← annotation? goals
  let value ← initializer? goals
  return some (← finish .parameter start
    (.manyMaybe .modifiers modifiers ++ .maybe .rest rest ++ .one .name name
      ++ .maybe .question question ++ .maybe .type type ++ .maybe .initializer value))

/-- A parameter that is there in any case. -/
def parameter (outerAwaits : Bool) : Reader Branch := do
  match ← parameter? goals outerAwaits false with
  | some a => return a
  | none => absent .parameter

/-- The parameters between brackets. -/
def parameterList? (form : FunctionForm) (strict : Bool) : Reader (Option Items) := do
  let outerAwaits := (← context).awaits
  within (fun c => { c with yields := form.yields, awaits := form.awaits })
    (commaList? .parameters (parameter? goals outerAwaits strict))

def parameters (form : FunctionForm) : Reader Items := do
  if !(← expect .openParenToken) then return ← noItems
  let items ← parameterList? goals form false
  let _ ← expect .closeParenToken
  return items.getD {}

/-! ## Result types -/

/-- The name in front of `is`. -/
def predicateName? : Reader (Option Branch) := attempt do
  let a ← name
  if (← isAt .isKeyword) && !(← afterLineEnd) then
    next
    return some a
  else return none

/-- A type, or a statement about a parameter. -/
def typeOrPredicate : Reader Branch := do
  let start ← here
  let subject ← if ← atName then predicateName? else pure none
  let type ← goals .type
  match subject with
  | some a => finish .typePredicate start (.one .name a ++ .one .type type)
  | none => return type

/-- The type of a function's result, behind a colon or, in the type of a function, behind an arrow. -/
def resultType? (afterArrow inType : Bool) : Reader (Option Branch) := do
  let follows ←
    if afterArrow then
      let _ ← expect .equalsGreaterThanToken
      pure true
    else if ← skip? .colonToken then pure true
    else if inType && (← isAt .equalsGreaterThanToken) then
      complain (.expected ":")
      next
      pure true
    else pure false
  if follows then
    return some (← within (fun c => { c with noConditional := false }) (typeOrPredicate goals))
  else return none

/-! ## Members of classes and types -/

/-- The form of a function with some of its marks. -/
def formOf (asterisk : Option Branch) (modifiers : Option Items) : FunctionForm :=
  ⟨asterisk.isSome, hasModifier modifiers .asyncKeyword⟩

/-- A getter or setter behind its word. -/
def accessor (k : Kind) (start : Nat) (modifiers : Option Items) (inType : Bool) : Reader Branch := do
  let name ← propertyName goals
  let typeParameters ← typeParameters? goals
  let parameters ← parameters goals {}
  let type ← resultType? goals false false
  let body ← functionBody goals {} inType (.expected "\x7b")
  finish k start
    (.manyMaybe .modifiers modifiers ++ .one .name name ++ .manyMaybe .typeParameters typeParameters
      ++ .many .parameters parameters ++ .maybe .type type ++ .maybe .body body)

/-- An index signature behind its modifiers. -/
def indexSignature (start : Nat) (modifiers : Option Items) : Reader Branch := do
  let parameters ← bracketed .parameters (parameter goals false) .openBracketToken .closeBracketToken
  let type ← annotation? goals
  endTypeMember
  finish .indexSignature start
    (.manyMaybe .modifiers modifiers ++ .many .parameters parameters ++ .maybe .type type)

/-- A signature without a name. -/
def callSignature (k : Kind) : Reader Branch := do
  let start ← here
  if k = .constructSignature then
    let _ ← expect .newKeyword
  let typeParameters ← typeParameters? goals
  let parameters ← parameters goals {}
  let type ← resultType? goals false true
  endTypeMember
  finish k start
    (.manyMaybe .typeParameters typeParameters ++ .many .parameters parameters ++ .maybe .type type)

def namedSignature (start : Nat) (modifiers : Option Items) : Reader Branch := do
  let name ← propertyName goals
  let question ← tokenNode? .questionToken
  let front := Parts.manyMaybe .modifiers modifiers ++ .one .name name ++ .maybe .question question
  if ← isAtAny [.openParenToken, .lessThanToken] then
    let typeParameters ← typeParameters? goals
    let parameters ← parameters goals {}
    let type ← resultType? goals false true
    endTypeMember
    finish .methodSignature start
      (front ++ .manyMaybe .typeParameters typeParameters ++ .many .parameters parameters
        ++ .maybe .type type)
  else
    let type ← annotation? goals
    let value ← initializer? goals
    endTypeMember
    finish .propertySignature start (front ++ .maybe .type type ++ .maybe .initializer value)

def typeMember : Reader Branch := do
  if ← isAtAny [.openParenToken, .lessThanToken] then return ← callSignature goals .callSignature
  if (← isAt .newKeyword) && (← thenAtAny [.openParenToken, .lessThanToken]) then
    return ← callSignature goals .constructSignature
  let start ← here
  let modifiers ← modifiers goals false
  if ← contextual? .getKeyword then return ← accessor goals .getAccessor start modifiers true
  if ← contextual? .setKeyword then return ← accessor goals .setAccessor start modifiers true
  if ← startsIndexSignature then return ← indexSignature goals start modifiers
  namedSignature goals start modifiers

/-- The members of a type in braces. -/
def typeMembers : Reader Items := do
  if ← expect .openBraceToken then
    let members ← list .typeMembers (typeMember goals)
    let _ ← expect .closeBraceToken
    return members
  else noItems

end LintRepair.Syntax.Grammar.Reader
