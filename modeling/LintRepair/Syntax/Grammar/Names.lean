import LintRepair.Syntax.Grammar.Lists

/-!
# Names, literals and modifiers

The grammar is recursive through its goals: a production receives how goals are read and reads one of them
where its own part ends.
-/
namespace LintRepair.Syntax.Grammar

/-- What the grammar reads inside other things. -/
inductive Goal where
  | statement
  /-- Expressions with commas between them. -/
  | expression
  /-- An expression without commas; where `arrowTypes` is not set, an arrow function with a result type has
  to be followed by a colon. -/
  | assignment (arrowTypes : Bool)
  /-- Operands joined by operators that bind more tightly than `level`. -/
  | operation (level : Nat)
  /-- An operand with its own powers. -/
  | operand
  /-- An operand with the operators before it. -/
  | unary
  /-- A value with accesses and calls behind it. -/
  | access
  /-- What stands behind the sign of a decorator. -/
  | decoration
  /-- A value with nothing behind it. -/
  | primary
  | type
  /-- A type that may stand between `|` and `&`. -/
  | typeOperand
  /-- A declared name or a pattern. -/
  | pattern (onPrivate : Cause)
  /-- A markup element or fragment. -/
  | markup (inExpression : Bool) (firstRoot : Option Nat) (parent : Option Branch) (unary : Bool)
  /-- The body of a namespace, or of the namespaces inside it that its name lists. -/
  | namespaceBody
deriving Inhabited

/-- How goals are read. -/
abbrev Goals := Goal → Reader Branch

namespace Reader

/-! ## Names -/

/-- The current token as a name. -/
def takeName : Reader Branch := do
  let t := (← state).token
  advance
  finish .identifier t.fullStart .none fun i => { i with text := t.value, token := t.kind }

def privateName : Reader Branch := do
  let t := (← state).token
  next
  finish .privateIdentifier t.fullStart .none fun i => { i with text := t.value }

/-- A name if `isName` is set; otherwise one of no width, and a complaint. -/
def nameIf (isName : Bool) (cause : Option Cause) (onPrivate : Option Cause) : Reader Branch := do
  if isName then takeName
  else if ← isAt .privateIdentifier then
    complain (onPrivate.getD .privateOutsideClass)
    takeName
  else
    let t := (← state).token
    let word := ((← state).source.slice t.start t.stop).toString
    let usual := if t.kind.isReservedWord then Cause.reservedWord word else .identifierExpected
    let cause := cause.getD usual
    if t.kind = .endOfFileToken then missingHere .identifier cause else missing .identifier cause

def name : Reader Branch := do nameIf (← atName) none none

def nameOr (cause : Cause) : Reader Branch := do nameIf (← atName) (some cause) none

def declaredName (onPrivate : Option Cause) : Reader Branch := do nameIf (← atDeclaredName) none onPrivate

def declaredName? : Reader (Option Branch) := do
  if ← atDeclaredName then return some (← declaredName none) else return none

/-- A name that may be any word. -/
def word : Reader Branch := do nameIf (← atWord) none none

def wordOr (cause : Cause) : Reader Branch := do nameIf (← atWord) (some cause) none

/-- A word that may not be written with an escape. -/
def plainWord : Reader Branch := do
  if (← state).token.escaped then complain .escapeMisplaced
  word

/-- The name behind a dot. A word that begins the next line's construct is not taken for it. -/
def memberName (anyWord allowPrivate allowEscape : Bool) : Reader Branch := do
  let lost ← if (← afterLineEnd) && (← atWord) then thenSameLine atWord else pure false
  if lost then return ← missingHere .identifier .identifierExpected
  if ← isAt .privateIdentifier then
    let a ← privateName
    if allowPrivate then return a else return ← missingHere .identifier .identifierExpected
  if anyWord then
    if allowEscape then word else plainWord
  else name

/-- Behind the first name of a dotted one; at most `fuel` further names. -/
def dottedRest (start : Nat) (anyWord : Bool) : Nat → Branch → Reader Branch
  | 0, a => return a
  | fuel + 1, a => do
    if ← skip? .dotToken then
      if ← isAt .lessThanToken then return a
      let right ← memberName anyWord false true
      let whole ← finish .qualifiedName start (.one .left a ++ .one .right right)
      dottedRest start anyWord fuel whole
    else return a

/-- A name with further names behind dots. -/
def dottedName (anyWord : Bool) (cause : Option Cause) : Reader Branch := do
  let start ← here
  let first ← nameIf (← if anyWord then atWord else atName) cause none
  dottedRest start anyWord (← budget) first

/-! ## Literals -/

/-- The current token as a literal. -/
def literal : Reader Branch := do
  let t := (← state).token
  next
  finish t.kind t.fullStart .none fun i => { i with text := t.value }

/-- Reads the current token again as a template, with what is wrong about its escapes. -/
def rereadTemplate (report : Bool) : Reader Unit :=
  accept (fun s => s.token.asTemplate s.source report) fun _ h => h.asTemplate report

/-- The stretch of a template behind a substitution. -/
def templateRest (tagged : Bool) : Reader Branch := do
  if ← isAt .closeBraceToken then
    rereadTemplate (!tagged)
    literal
  else expectNode .templateTail (.expected "\x7d")

/-- The stretch of a template before its first substitution. -/
def templateHead (tagged : Bool) : Reader Branch := do
  if !tagged && (← state).token.malformed then rereadTemplate true
  literal

/-- Substitutions with the stretches behind them, at most `fuel`. -/
def templateSpans (k : Kind) (tagged : Bool) (label : Label) (inner : Reader Branch) :
    Nat → Array Branch → Reader (Array Branch)
  | 0, acc => return acc
  | fuel + 1, acc => do
    let start ← here
    let a ← inner
    let rest ← templateRest tagged
    let span ← finish k start (.one label a ++ .one .literal rest)
    if rest.kind = .templateMiddle then
      templateSpans k tagged label inner fuel (acc.push span)
    else return acc.push span

/-- A template with substitutions. -/
def templateOf (k spanKind : Kind) (tagged : Bool) (label : Label) (inner : Reader Branch) : Reader Branch := do
  let start ← here
  let head ← templateHead tagged
  let spansStart ← here
  let spans ← templateSpans spanKind tagged label inner (← budget) #[]
  let spans ← listed spansStart spans
  finish k start (.one .head head ++ .many .spans spans)

/-- Joins a right angle bracket with what follows. -/
def joinGreater : Reader Kind := do
  accept (fun s => s.token.joinGreater s.source) fun _ h => h.joinGreater
  kind

/-- Takes only the first half of a doubled left angle bracket. -/
def splitLess : Reader Kind := do
  if ← isAt .lessThanLessThanToken then cutTo .lessThanToken rfl
  kind

end Reader

variable (goals : Goals)

namespace Reader

/-! ## Property names and modifiers -/

/-- An expression in brackets that gives a property its name. -/
def computedName : Reader Branch := do
  let start ← here
  let _ ← expect .openBracketToken
  let e ← allowingIn (goals .expression)
  let _ ← expect .closeBracketToken
  finish .computedPropertyName start (.one .expression e)

def propertyName : Reader Branch := do
  match ← kind with
  | .stringLiteral | .numericLiteral | .bigIntLiteral => literal
  | .openBracketToken => computedName goals
  | .privateIdentifier => privateName
  | _ => word

/-- The current token as a modifier, if the words behind it say that it is one. -/
def modifier? (seenStatic constToo notBlock : Bool) : Reader (Option Branch) := do
  let t := (← state).token
  let isModifier ←
    if t.kind = .constKeyword && constToo then
      attemptIf (do
        next
        sameLine mayFollowModifier)
    else if notBlock && t.kind = .staticKeyword && (← thenAtAny [.openBraceToken]) then pure false
    else if seenStatic && t.kind = .staticKeyword then pure false
    else if t.kind.isModifier then attemptIf passModifier
    else pure false
  if isModifier then return some (← finish t.kind t.fullStart .none)
  else return none

/-- An expression that decorates what follows. -/
def decorator? : Reader (Option Branch) := do
  let start ← here
  if !(← skip? .atToken) then return none
  let e ← within (fun c => { c with inDecorator := true }) (goals .decoration)
  return some (← finish .decorator start (.one .expression e))

def decorators : Nat → Array Branch → Reader (Array Branch)
  | 0, acc => return acc
  | fuel + 1, acc => do
    match ← decorator? goals with
    | none => return acc
    | some d => decorators fuel (acc.push d)

def plainModifiers (constToo notBlock : Bool) : Nat → Bool → Array Branch → Reader (Array Branch)
  | 0, _, acc => return acc
  | fuel + 1, seenStatic, acc => do
    match ← modifier? seenStatic constToo notBlock with
    | none => return acc
    | some m => plainModifiers constToo notBlock fuel (seenStatic || m.kind = .staticKeyword) (acc.push m)

/-- Modifiers, and decorators before or among them if they are allowed. -/
def modifiers (decorated : Bool) (constToo : Bool := false) (notBlock : Bool := false) :
    Reader (Option Items) := do
  let start ← here
  let fuel ← budget
  let isStatic (as : Array Branch) : Bool := as.any (·.kind = .staticKeyword)
  let leading ← if decorated then decorators goals fuel #[] else pure #[]
  let first ← plainModifiers constToo notBlock fuel false leading
  let more ← if first.size > leading.size && decorated then decorators goals fuel first else pure first
  let last ← if more.size > first.size then plainModifiers constToo notBlock fuel (isStatic more) more
    else pure more
  if last.isEmpty then return none
  return some (← listed start last)

end Reader

/-- A list has a modifier of a kind. -/
def hasModifier (ms : Option Items) (k : Kind) : Bool := ms.any fun xs => xs.nodes.any (·.kind = k)

namespace Reader

/-- A modifier of the given kind before a member. -/
def contextual? (k : Kind) : Reader Bool := do
  if ← isAt k then attemptIf passModifier else return false

/-- Statements in braces; the closing brace may be all there is. -/
def block (withoutBrace : Bool) (cause : Cause) : Reader Branch := do
  let start ← here
  let opened ← expectOr .openBraceToken cause
  if opened || withoutBrace then
    let multiLine ← afterLineEnd
    let statements ← list .blockStatements (goals .statement)
    closeBracket .closeBraceToken
    let a ← finish .block start (.many .statements statements) fun i => { i with multiLine }
    if ← isAt .equalsToken then
      complain .assignmentToBlock
      next
    return a
  else
    let statements ← noItems
    finish .block start (.many .statements statements)

def plainBlock : Reader Branch := block goals false (.expected "\x7b")

/-- What a function's kind does to words in it. -/
structure FunctionForm where
  yields : Bool := false
  awaits : Bool := false

/-- The body of a function. -/
def functionBlock (form : FunctionForm) (withoutBrace : Bool) (cause : Cause) : Reader Branch :=
  within (fun c => { c with yields := form.yields, awaits := form.awaits, inDecorator := false })
    (block goals withoutBrace cause)

/-- Ends a member of a type. -/
def endTypeMember : Reader Unit := do
  if !(← skip? .commaToken) then endStatement

/-- The body of a function, or the end of its declaration. -/
def functionBody (form : FunctionForm) (inType : Bool) (cause : Cause) : Reader (Option Branch) := do
  if !(← isAt .openBraceToken) then
    if inType then
      endTypeMember
      return none
    if ← mayEnd then
      endStatement
      return none
  return some (← functionBlock goals form false cause)

/-- Assigned value. -/
def initializer? : Reader (Option Branch) := do
  if ← skip? .equalsToken then return some (← goals (.assignment true)) else return none

/-- The type behind a colon. -/
def annotation? : Reader (Option Branch) := do
  if ← skip? .colonToken then return some (← goals .type) else return none

end Reader
end LintRepair.Syntax.Grammar
