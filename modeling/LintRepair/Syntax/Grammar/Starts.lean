import LintRepair.Syntax.Grammar.State

/-!
# How constructs begin

Whether the tokens from the current one on may begin a name, a type, an expression, a declaration or a
statement.
-/
namespace LintRepair.Syntax.Grammar.Reader

/-! ## Names -/

/-- A word or a name, private names included. -/
def atWord : Reader Bool := return (← kind).isWord

/-- A name where the word may not be one that is reserved here. -/
def atName : Reader Bool := do
  let k ← kind
  let c ← context
  if k = .identifier then return true
  else if k = .yieldKeyword && c.yields then return false
  else if k = .awaitKeyword && c.awaits then return false
  else return k.isFreeWord

/-- A name that is being declared. -/
def atDeclaredName : Reader Bool := do
  let k ← kind
  return k = .identifier || k.isFreeWord

def atPropertyName : Reader Bool := do
  return (← atWord) || (← isAtAny [.stringLiteral, .numericLiteral, .bigIntLiteral])

/-- A declared name, a private one or a pattern. -/
def atPattern : Reader Bool := do
  return (← isAtAny [.openBraceToken, .openBracketToken, .privateIdentifier]) || (← atDeclaredName)

/-! ## What follows the current token -/

/-- Whether the next token satisfies a test. -/
def thenIs (test : Reader Bool) : Reader Bool := peek (do
  next
  test)

def thenAtAny (ks : List Kind) : Reader Bool := thenIs (isAtAny ks)

/-- The next token stands on the same line and satisfies a test. -/
def sameLine (test : Reader Bool) : Reader Bool := do
  if ← afterLineEnd then return false
  test

def thenSameLine (test : Reader Bool) : Reader Bool := thenIs (sameLine test)

def atWordOrLiteral : Reader Bool := do
  return (← atWord) || (← isAtAny [.numericLiteral, .bigIntLiteral, .stringLiteral])

def atTemplate : Reader Bool := isAtAny [.noSubstitutionTemplateLiteral, .templateHead]

/-! ## Modifiers -/

/-- What may follow a modifier. -/
def mayFollowModifier : Reader Bool := do
  return (← isAtAny [.openBracketToken, .openBraceToken, .asteriskToken, .dotDotDotToken])
    || (← atPropertyName)

def mayFollowExport : Reader Bool := do
  if ← isAt .atToken then return true
  if ← isAtAny [.asteriskToken, .asKeyword, .openBraceToken] then return false
  mayFollowModifier

def mayFollowDefault : Reader Bool := do
  if ← isAtAny [.classKeyword, .functionKeyword, .interfaceKeyword, .atToken] then return true
  if ← isAt .abstractKeyword then return ← thenSameLine (isAt .classKeyword)
  if ← isAt .asyncKeyword then return ← thenSameLine (isAt .functionKeyword)
  return false

/-- Reads past a word and tells whether it is a modifier of what follows. -/
def passModifier : Reader Bool := do
  match ← kind with
  | .constKeyword => return (← nextKind) = .enumKeyword
  | .exportKeyword =>
    next
    match ← kind with
    | .defaultKeyword => thenIs mayFollowDefault
    | .typeKeyword => thenIs mayFollowExport
    | _ => mayFollowExport
  | .defaultKeyword =>
    next
    mayFollowDefault
  | .staticKeyword | .getKeyword | .setKeyword =>
    next
    mayFollowModifier
  | _ =>
    next
    sameLine mayFollowModifier

/-! ## Types -/

def startsParameter (startsType : Reader Bool) : Reader Bool := do
  if ← isAt .dotDotDotToken then return true
  if ← atPattern then return true
  if (← kind).isModifier then return true
  if ← isAt .atToken then return true
  startsType

/-- Whether a type begins; brackets are followed at most `fuel` deep. -/
def startsTypeWithin (fuel : Nat) (inParameter : Bool) : Reader Bool := do
  match ← kind with
  | .anyKeyword | .unknownKeyword | .stringKeyword | .numberKeyword | .bigIntKeyword
  | .booleanKeyword | .readonlyKeyword | .symbolKeyword | .uniqueKeyword | .voidKeyword
  | .undefinedKeyword | .nullKeyword | .thisKeyword | .typeOfKeyword | .neverKeyword
  | .openBraceToken | .openBracketToken | .lessThanToken | .barToken | .ampersandToken | .newKeyword
  | .stringLiteral | .numericLiteral | .bigIntLiteral | .trueKeyword | .falseKeyword
  | .objectKeyword | .asteriskToken | .questionToken | .exclamationToken | .dotDotDotToken
  | .inferKeyword | .importKeyword | .assertsKeyword | .noSubstitutionTemplateLiteral
  | .templateHead => return true
  | .functionKeyword => return !inParameter
  | .minusToken =>
    if inParameter then return false
    thenAtAny [.numericLiteral, .bigIntLiteral]
  | .openParenToken =>
    if inParameter then return false
    match fuel with
    | 0 => return false
    | fuel + 1 => thenIs (do
      if ← isAt .closeParenToken then return true
      if ← startsParameter (startsTypeWithin fuel true) then return true
      startsTypeWithin fuel false)
  | _ => atName

def startsType : Reader Bool := do startsTypeWithin (← state).source.size false

/-! ## Expressions -/

def startsAccess : Reader Bool := do
  match ← kind with
  | .thisKeyword | .superKeyword | .nullKeyword | .trueKeyword | .falseKeyword | .numericLiteral
  | .bigIntLiteral | .stringLiteral | .noSubstitutionTemplateLiteral | .templateHead
  | .openParenToken | .openBracketToken | .openBraceToken | .functionKeyword | .classKeyword
  | .newKeyword | .slashToken | .slashEqualsToken | .identifier => return true
  | .importKeyword => thenAtAny [.openParenToken, .lessThanToken, .dotToken]
  | _ => atName

def atBinaryOperator : Reader Bool := do
  let k ← kind
  if k = .inKeyword && (← context).noIn then return false
  return k.precedence > 0

def startsExpression : Reader Bool := do
  if ← startsAccess then return true
  if ← isAtAny [.plusToken, .minusToken, .tildeToken, .exclamationToken, .deleteKeyword,
    .typeOfKeyword, .voidKeyword, .plusPlusToken, .minusMinusToken, .lessThanToken, .awaitKeyword,
    .yieldKeyword, .privateIdentifier, .atToken] then return true
  if ← atBinaryOperator then return true
  atName

/-- An expression that may be a statement of its own. -/
def startsExpressionStatement : Reader Bool := do
  if ← isAtAny [.openBraceToken, .functionKeyword, .classKeyword, .atToken] then return false
  startsExpression

/-! ## Declarations and statements -/

def atUsingName : Reader Bool := do
  return ((← atDeclaredName) || (← isAt .openBraceToken)) && !(← afterLineEnd)

/-- The word `using` begins a declaration. -/
def atUsing : Reader Bool := thenIs atUsingName

/-- The words `await using` begin a declaration. -/
def atAwaitUsing : Reader Bool := thenIs (do
  if ← isAt .usingKeyword then
    next
    atUsingName
  else return false)

/-- Reads past the words in front of a declaration, at most `fuel` of them, and tells whether there is
one. -/
def passDeclaration : Nat → Reader Bool
  | 0 => return false
  | fuel + 1 => do
    match ← kind with
    | .varKeyword | .letKeyword | .constKeyword | .functionKeyword | .classKeyword
    | .enumKeyword => return true
    | .usingKeyword => atUsing
    | .awaitKeyword => atAwaitUsing
    | .interfaceKeyword | .typeKeyword =>
      next
      sameLine atName
    | .moduleKeyword | .namespaceKeyword =>
      next
      sameLine (do return (← atName) || (← isAt .stringLiteral))
    | .abstractKeyword | .accessorKeyword | .asyncKeyword | .declareKeyword | .privateKeyword
    | .protectedKeyword | .publicKeyword | .readonlyKeyword =>
      let before ← kind
      next
      if ← afterLineEnd then return false
      if before = .declareKeyword && (← isAt .typeKeyword) then return true
      passDeclaration fuel
    | .globalKeyword =>
      next
      isAtAny [.openBraceToken, .identifier, .exportKeyword]
    | .importKeyword =>
      next
      return (← isAtAny [.stringLiteral, .asteriskToken, .openBraceToken]) || (← atWord)
    | .exportKeyword =>
      next
      let after ← if ← isAt .typeKeyword then peek nextKind else kind
      if [Kind.equalsToken, .asteriskToken, .openBraceToken, .defaultKeyword, .asKeyword,
        .atToken].contains after then return true
      passDeclaration fuel
    | .staticKeyword =>
      next
      passDeclaration fuel
    | _ => return false

def startsDeclaration : Reader Bool := do
  let fuel := (← state).source.size
  peek (passDeclaration (fuel + 1))

def startsStatement : Reader Bool := do
  match ← kind with
  | .atToken | .semicolonToken | .openBraceToken | .varKeyword | .letKeyword | .usingKeyword
  | .functionKeyword | .classKeyword | .enumKeyword | .ifKeyword | .doKeyword | .whileKeyword
  | .forKeyword | .continueKeyword | .breakKeyword | .returnKeyword | .withKeyword | .switchKeyword
  | .throwKeyword | .tryKeyword | .debuggerKeyword | .catchKeyword | .finallyKeyword => return true
  | .importKeyword =>
    return (← startsDeclaration) || (← thenAtAny [.openParenToken, .lessThanToken, .dotToken])
  | .constKeyword | .exportKeyword => startsDeclaration
  | .asyncKeyword | .declareKeyword | .interfaceKeyword | .moduleKeyword | .namespaceKeyword
  | .typeKeyword | .globalKeyword => return true
  | .accessorKeyword | .publicKeyword | .privateKeyword | .protectedKeyword | .staticKeyword
  | .readonlyKeyword => return (← startsDeclaration) || !(← thenSameLine atWord)
  | _ => startsExpression

/-! ## Members -/

/-- Reads past modifiers, at most `fuel` of them; the answer is the last one. A modifier that satisfies
`decisive` ends the reading. -/
def passModifiers (decisive : Kind → Bool) : Nat → Option Kind → Reader (Option Kind)
  | 0, last => return last
  | fuel + 1, last => do
    let k ← kind
    if k.isModifier && !last.any decisive then
      if decisive k then return some k
      next
      passModifiers decisive fuel (some k)
    else return last

/-- A modifier that only stands before members. -/
def isMemberModifier : Kind → Bool
  | .publicKeyword | .privateKeyword | .protectedKeyword | .readonlyKeyword | .overrideKeyword
  | .staticKeyword | .accessorKeyword => true
  | _ => false

def startsClassMember : Reader Bool := peek (do
  if ← isAt .atToken then return true
  let last ← passModifiers isMemberModifier (← state).source.size none
  if last.any isMemberModifier then return true
  if ← isAt .asteriskToken then return true
  let word ← if ← atPropertyName then do
      let k ← kind
      next
      pure (some k)
    else pure last
  if ← isAt .openBracketToken then return true
  match word with
  | none => return false
  | some k =>
    if !k.isListedWord || k = .setKeyword || k = .getKeyword then return true
    if ← isAtAny [.openParenToken, .lessThanToken, .exclamationToken, .colonToken, .equalsToken,
      .questionToken] then return true
    mayEnd)

def startsTypeMember : Reader Bool := peek (do
  if ← isAtAny [.openParenToken, .lessThanToken, .getKeyword, .setKeyword] then return true
  let last ← passModifiers (fun _ => false) (← state).source.size none
  if ← isAt .openBracketToken then return true
  let named ← atPropertyName
  if named then next
  if named || last.isSome then
    if ← isAtAny [.openParenToken, .lessThanToken, .questionToken, .colonToken, .commaToken] then
      return true
    mayEnd
  else return false)

/-- An index signature, and no computed name, begins at a bracket. -/
def startsIndexSignature : Reader Bool := do
  if !(← isAt .openBracketToken) then return false
  peek (do
    next
    if ← isAtAny [.dotDotDotToken, .closeBracketToken] then return true
    if (← kind).isModifier then
      next
      if ← atName then return true
    else if !(← atName) then return false
    else next
    if ← isAtAny [.colonToken, .commaToken] then return true
    if !(← isAt .questionToken) then return false
    next
    isAtAny [.colonToken, .commaToken, .closeBracketToken])

/-! ## Heritage -/

def atHeritage : Reader Bool := isAtAny [.extendsKeyword, .implementsKeyword]

/-- A word that begins another heritage clause. -/
def atNextHeritage : Reader Bool := do
  if ← atHeritage then thenIs startsExpression else return false

/-- An object and no class body begins at a brace. -/
def atHeritageObject : Reader Bool := peek (do
  if (← nextKind) = .closeBraceToken then
    let after ← nextKind
    return [Kind.commaToken, .openBraceToken, .extendsKeyword, .implementsKeyword].contains after
  else return true)

end LintRepair.Syntax.Grammar.Reader
