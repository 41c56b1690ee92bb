import LintRepair.Syntax.Grammar.Expressions

/-!
# Statements
-/
namespace LintRepair.Syntax.Grammar.Reader

variable (goals : Goals)

/-- An expression in brackets behind a statement's word. -/
def head : Reader Branch := do
  let _ ← expect .openParenToken
  let e ← allowingIn (goals .expression)
  closeBracket .closeParenToken
  return e

/-! ## Variables -/

def variable_ (mayAssert : Bool) : Reader Branch := do
  let start ← here
  let name ← goals (.pattern .privateVariable)
  let exclamation ←
    if mayAssert && name.kind = .identifier && !(← afterLineEnd) then tokenNode? .exclamationToken
    else pure none
  let type ← annotation? goals
  let value ← if ← isAtAny [.inKeyword, .ofKeyword] then pure none else initializer? goals
  finish .variableDeclaration start
    (.one .name name ++ .maybe .exclamation exclamation ++ .maybe .type type
      ++ .maybe .initializer value)

/-- Variables behind the word that declares them; `await using` counts as one word. -/
def variableList (inFor : Bool) : Reader Branch := do
  let start ← here
  let word ← kind
  if word = .awaitKeyword then next
  next
  let isOf : Bool ← if ← isAt .ofKeyword then
      peek (do
        next
        if ← atName then return (← nextKind) = .closeParenToken else return false)
    else pure false
  let items ← if isOf then noItems
    else within (fun c => { c with noIn := inFor }) (commaList .declared (variable_ goals !inFor))
  finish .variableDeclarationList start (.many .declarations items) fun i => { i with token := word }

def variableStatement (start : Nat) (modifiers : Option Items) : Reader Branch := do
  let list ← variableList goals false
  endStatement
  finish .variableStatement start (.manyMaybe .modifiers modifiers ++ .one .declarations list)

/-! ## Branches and loops -/

def ifStatement : Reader Branch := do
  let start ← here
  next
  let condition ← head goals
  let whenTrue ← goals .statement
  let otherwise ← if ← skip? .elseKeyword then pure (some (← goals .statement)) else pure none
  finish .ifStatement start
    (.one .expression condition ++ .one .statement whenTrue ++ .maybe .otherwise otherwise)

def doStatement : Reader Branch := do
  let start ← here
  next
  let body ← goals .statement
  let _ ← expect .whileKeyword
  let condition ← head goals
  let _ ← skip? .semicolonToken
  finish .doStatement start (.one .statement body ++ .one .expression condition)

/-- A statement with an expression in brackets and a body. -/
def headed (k : Kind) : Reader Branch := do
  let start ← here
  next
  let e ← head goals
  let body ← goals .statement
  finish k start (.one .expression e ++ .one .statement body)

/-- The start of a loop's head. -/
def forInitializer? : Reader (Option Branch) := do
  if ← isAt .semicolonToken then return none
  let declares ← match ← kind with
    | .varKeyword | .letKeyword | .constKeyword => pure true
    | .usingKeyword => thenIs (do if ← isAt .ofKeyword then return false else atUsingName)
    | .awaitKeyword => atAwaitUsing
    | _ => pure false
  if declares then return some (← variableList goals true)
  return some (← within (fun c => { c with noIn := true }) (goals .expression))

def forStatement : Reader Branch := do
  let start ← here
  next
  let await ← tokenNode? .awaitKeyword
  let _ ← expect .openParenToken
  let first ← forInitializer? goals
  let isOf ← if await.isSome then expect .ofKeyword else skip? .ofKeyword
  if isOf then
    let e ← allowingIn (goals (.assignment true))
    let _ ← expect .closeParenToken
    let body ← goals .statement
    finish .forOfStatement start
      (.maybe .await await ++ .maybe .initializer first ++ .one .expression e ++ .one .statement body)
  else if ← skip? .inKeyword then
    let e ← allowingIn (goals .expression)
    let _ ← expect .closeParenToken
    let body ← goals .statement
    finish .forInStatement start
      (.maybe .initializer first ++ .one .expression e ++ .one .statement body)
  else
    let _ ← expect .semicolonToken
    let condition ← if ← isAtAny [.semicolonToken, .closeParenToken] then pure none
      else pure (some (← allowingIn (goals .expression)))
    let _ ← expect .semicolonToken
    let step ← if ← isAt .closeParenToken then pure none
      else pure (some (← allowingIn (goals .expression)))
    let _ ← expect .closeParenToken
    let body ← goals .statement
    finish .forStatement start
      (.maybe .initializer first ++ .maybe .condition condition ++ .maybe .increment step
        ++ .one .statement body)

/-! ## Jumps -/

def jump (k : Kind) : Reader Branch := do
  let start ← here
  next
  let target ← if ← mayEnd then pure none else pure (some (← name))
  endStatement
  finish k start (.maybe .target target)

def returnStatement : Reader Branch := do
  let start ← here
  next
  let e ← if ← mayEnd then pure none else pure (some (← allowingIn (goals .expression)))
  endStatement
  finish .returnStatement start (.maybe .expression e)

def throwStatement : Reader Branch := do
  let start ← here
  next
  let e ← if ← afterLineEnd then absent .identifier else allowingIn (goals .expression)
  if !(← end?) then complainEnd e
  finish .throwStatement start (.one .expression e)

/-! ## Switches and handlers -/

def clause : Reader Branch := do
  let start ← here
  if ← skip? .caseKeyword then
    let e ← allowingIn (goals .expression)
    let _ ← expect .colonToken
    let statements ← list .clauseStatements (goals .statement)
    finish .caseClause start (.one .expression e ++ .many .statements statements)
  else
    let _ ← expect .defaultKeyword
    let _ ← expect .colonToken
    let statements ← list .clauseStatements (goals .statement)
    finish .defaultClause start (.many .statements statements)

def switchStatement : Reader Branch := do
  let start ← here
  next
  let _ ← expect .openParenToken
  let e ← allowingIn (goals .expression)
  let _ ← expect .closeParenToken
  let blockStart ← here
  let _ ← expect .openBraceToken
  let clauses ← list .switchClauses (clause goals)
  let _ ← expect .closeBraceToken
  let block ← finish .caseBlock blockStart (.many .clauses clauses)
  finish .switchStatement start (.one .expression e ++ .one .block block)

def catchClause : Reader Branch := do
  let start ← here
  next
  let variable_ ← if ← skip? .openParenToken then do
      let v ← variable_ goals false
      let _ ← expect .closeParenToken
      pure (some v)
    else pure none
  let block ← plainBlock goals
  finish .catchClause start (.maybe .declarations variable_ ++ .one .block block)

def tryStatement : Reader Branch := do
  let start ← here
  let _ ← expect .tryKeyword
  let block ← plainBlock goals
  let handler ← if ← isAt .catchKeyword then pure (some (← catchClause goals)) else pure none
  let last ← if handler.isNone || (← isAt .finallyKeyword) then do
      let _ ← expectOr .finallyKeyword .catchOrFinallyExpected
      pure (some (← plainBlock goals))
    else pure none
  finish .tryStatement start
    (.one .block block ++ .maybe .catchClause handler ++ .maybe .finallyBlock last)

/-! ## Expressions as statements -/

/-- A statement that is only an expression, or one behind a label. -/
def expressionStatement : Reader Branch := do
  let start ← here
  let e ← allowingIn (goals .expression)
  let labels ← if e.kind = .identifier then skip? .colonToken else pure false
  if labels then
    let body ← goals .statement
    finish .labeledStatement start (.one .target e ++ .one .statement body)
  else
    if !(← end?) then complainEnd e
    finish .expressionStatement start (.one .expression e)

end LintRepair.Syntax.Grammar.Reader
