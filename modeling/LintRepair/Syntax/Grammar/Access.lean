import LintRepair.Syntax.Grammar.Types

/-!
# Values, accesses and calls

Literals and bracketed values, functions and classes as values, and the accesses and calls behind a value.
-/
namespace LintRepair.Syntax.Grammar.Reader

variable (goals : Goals)

/-! ## Classes -/

/-- Ends the declaration of a property. -/
def endProperty (name : Branch) (typed valued : Bool) (misspelled : Branch → Reader Unit) : Reader Unit := do
  if (← isAt .atToken) && !(← afterLineEnd) then complain .decoratorAfterName
  else if ← isAt .openParenToken then
    complain .callBehindType
    next
  else if typed && !(← mayEnd) then
    complain (if valued then .expected ";" else .propertyInitializerExpected)
  else if ← end? then return
  else if valued then complain (.expected ";")
  else misspelled name

/-- How far two words are apart, in tenths: a letter too many or too few counts ten, another letter
twenty, and a letter of the other case one. -/
def wordDistance (a b : List Char) : Nat :=
  let first := (List.range (b.length + 1)).map (· * 10)
  let rows := a.zipIdx.foldl
    (fun (previous : List Nat) (c, i) =>
      let pairs := (b.zip (previous.zip (previous.drop 1)))
      let row := pairs.foldl
        (fun (acc : List Nat × Nat) (d, diagonal, above) =>
          let left := acc.2
          let other := if c.toLower = d.toLower then diagonal + 1 else diagonal + 20
          let best := if c = d then diagonal else min (min (above + 10) (left + 10)) other
          (best :: acc.1, best))
        ([(i + 1) * 10], (i + 1) * 10)
      row.1.reverse)
    first
  rows.getLast?.getD 0

/-- The keyword that a word most likely stands for: it is nearer than four tenths of the word's length. -/
def nearestKeyword? (word : String) : Option String :=
  let cs := word.toList
  let n := cs.length
  let slack := max 2 (n * 34 / 100)
  (Kind.suggestions.foldl
    (fun (best : Option String × Nat) candidate =>
      let ds := candidate.toList
      if candidate = word || max ds.length n - min ds.length n > slack then best
      else
        let d := wordDistance cs ds
        if d + 1 ≤ best.2 then (some candidate, d) else best)
    (none, (n * 4 / 10 + 1) * 10)).1

/-- A keyword with a blank behind it, where a word begins with one. -/
def splitKeyword? (word : String) : Option String :=
  (Kind.suggestions.find? fun k => word.length > k.length + 2 && word.startsWith k).map fun k =>
    k ++ " " ++ (word.drop k.length).toString

/-- Complains that a declaration has no name, or a name that it cannot have. -/
def complainName (emptyAt : Kind) (empty : Cause) (wrong : String → Cause) : Reader Unit := do
  let t := (← state).token
  if t.kind = emptyAt then complain empty else complain (wrong t.value.toString)

/-- Complains that a statement does not end behind a name or another expression; a misspelled keyword is
the likely cause. -/
def complainEnd (a : Branch) : Reader Unit := do
  if a.kind = .taggedTemplateExpression then
    match a.child? .template with
    | some t => complainAt t.start .moduleNameQuotes
    | none => pure ()
    return
  let word := if a.kind = .identifier then a.text.toString else ""
  match word with
  | "" => complain (.expected ";")
  | "const" | "let" | "var" => complainAt a.start .variableMisplaced
  | "declare" => pure ()
  | "interface" => complainName .openBraceToken .interfaceUnnamed .interfaceName
  | "is" => complainAt a.start .predicateMisplaced
  | "module" | "namespace" => complainName .openBraceToken .namespaceUnnamed .namespaceName
  | "type" => complainName .equalsToken .aliasUnnamed .aliasName
  | _ =>
    match (nearestKeyword? word).orElse fun _ => splitKeyword? word with
    | some s => complainAt a.start (.misspelled s)
    | none => if !(← isAt .unknown) then complainAt a.start .unexpectedWord

def method (start : Nat) (modifiers : Option Items) (asterisk : Option Branch) (name : Branch)
    (question exclamation : Option Branch) (cause : Cause) : Reader Branch := do
  let form := formOf asterisk modifiers
  let typeParameters ← typeParameters? goals
  let parameters ← parameters goals form
  let type ← resultType? goals false false
  let body ← functionBody goals form false cause
  finish .methodDeclaration start
    (.manyMaybe .modifiers modifiers ++ .maybe .asterisk asterisk ++ .one .name name
      ++ .maybe .question question ++ .maybe .exclamation exclamation
      ++ .manyMaybe .typeParameters typeParameters ++ .many .parameters parameters
      ++ .maybe .type type ++ .maybe .body body)

def property (start : Nat) (modifiers : Option Items) (name : Branch) (question : Option Branch) :
    Reader Branch := do
  let exclamation ← if question.isNone && !(← afterLineEnd) then tokenNode? .exclamationToken
    else pure none
  let type ← annotation? goals
  let value ← within (fun c => { c with yields := false, awaits := false, noIn := false })
    (initializer? goals)
  endProperty name type.isSome value.isSome complainEnd
  finish .propertyDeclaration start
    (.manyMaybe .modifiers modifiers ++ .one .name name ++ .maybe .question question
      ++ .maybe .exclamation exclamation ++ .maybe .type type ++ .maybe .initializer value)

def propertyOrMethod (start : Nat) (modifiers : Option Items) : Reader Branch := do
  let asterisk ← tokenNode? .asteriskToken
  let name ← propertyName goals
  let question ← tokenNode? .questionToken
  if asterisk.isSome || (← isAtAny [.openParenToken, .lessThanToken]) then
    method goals start modifiers asterisk name question none .bodyOrSemicolonExpected
  else property goals start modifiers name question

/-- A constructor, named by its word or by a string. -/
def constructor? (start : Nat) (modifiers : Option Items) : Reader (Option Branch) := attempt do
  let t := (← state).token
  let named ←
    if t.kind = .constructorKeyword then
      next
      pure true
    else if t.kind = .stringLiteral && t.value.toString = "constructor"
        && (← thenAtAny [.openParenToken]) then
      next
      pure true
    else pure false
  if !named then return none
  let typeParameters ← typeParameters? goals
  let parameters ← parameters goals {}
  let type ← resultType? goals false false
  let body ← functionBody goals {} false .bodyOrSemicolonExpected
  return some (← finish .constructorDeclaration start
    (.manyMaybe .modifiers modifiers ++ .manyMaybe .typeParameters typeParameters
      ++ .many .parameters parameters ++ .maybe .type type ++ .maybe .body body))

def classElement : Reader Branch := do
  let start ← here
  if ← skip? .semicolonToken then return ← finish .semicolonClassElement start .none
  let modifiers ← modifiers goals true true true
  if (← isAt .staticKeyword) && (← thenAtAny [.openBraceToken]) then
    next
    let body ← within (fun c => { c with yields := false, awaits := true }) (plainBlock goals)
    return ← finish .classStaticBlockDeclaration start
      (.manyMaybe .modifiers modifiers ++ .one .body body)
  if ← contextual? .getKeyword then return ← accessor goals .getAccessor start modifiers false
  if ← contextual? .setKeyword then return ← accessor goals .setAccessor start modifiers false
  if ← isAtAny [.constructorKeyword, .stringLiteral] then
    match ← constructor? goals start modifiers with
    | some a => return a
    | none => pure ()
  if ← startsIndexSignature then return ← indexSignature goals start modifiers
  if (← atWord) || (← isAtAny [.stringLiteral, .numericLiteral, .bigIntLiteral, .asteriskToken,
      .openBracketToken]) then
    return ← propertyOrMethod goals start modifiers
  let name ← missingHere .identifier .declarationExpected
  property goals start modifiers name none

/-- An expression with type arguments, as classes are derived from. -/
def heritageType : Reader Branch := do
  let start ← here
  let e ← goals .access
  if e.kind = .expressionWithTypeArguments then return e
  let args ← typeArguments? goals
  finish .expressionWithTypeArguments start
    (.one .expression e ++ .manyMaybe .typeArguments args)

def heritageClause : Reader Branch := do
  let start ← here
  let word ← kind
  next
  let types ← commaList .heritageTypes (heritageType goals)
  finish .heritageClause start (.many .elements types) fun i => { i with token := word }

def heritage? : Reader (Option Items) := do
  if ← atHeritage then return some (← list .heritageClauses (heritageClause goals)) else return none

/-- A class behind its modifiers. -/
def classLike (k : Kind) (start : Nat) (modifiers : Option Items) : Reader Branch := do
  let _ ← expect .classKeyword
  let named ← if ← atDeclaredName then
      if ← isAt .implementsKeyword then pure !(← thenIs atWord) else pure true
    else pure false
  let name ← if named then pure (some (← takeName)) else pure none
  let typeParameters ← typeParameters? goals
  let exported := hasModifier modifiers .exportKeyword
  let (heritage, members) ← within (fun c => { c with awaits := c.awaits || exported }) (do
    let heritage ← heritage? goals
    let members ← if ← expect .openBraceToken then
        let members ← list .classMembers (classElement goals)
        let _ ← expect .closeBraceToken
        pure members
      else noItems
    return (heritage, members))
  finish k start
    (.manyMaybe .modifiers modifiers ++ .maybe .name name ++ .manyMaybe .typeParameters typeParameters
      ++ .manyMaybe .heritage heritage ++ .many .members members)

/-! ## Functions and bracketed values -/

def functionExpression : Reader Branch := within (fun c => { c with inDecorator := false }) do
  let start ← here
  let modifiers ← modifiers goals false
  let _ ← expect .functionKeyword
  let asterisk ← tokenNode? .asteriskToken
  let form := formOf asterisk modifiers
  let name ← within (fun c => { c with yields := c.yields || form.yields, awaits := c.awaits || form.awaits })
    declaredName?
  let typeParameters ← typeParameters? goals
  let parameters ← parameters goals form
  let type ← resultType? goals false false
  let body ← functionBlock goals form false (.expected "\x7b")
  finish .functionExpression start
    (.manyMaybe .modifiers modifiers ++ .maybe .asterisk asterisk ++ .maybe .name name
      ++ .manyMaybe .typeParameters typeParameters ++ .many .parameters parameters
      ++ .maybe .type type ++ .one .body body)

def parenthesized : Reader Branch := do
  let start ← here
  let _ ← expect .openParenToken
  let e ← allowingIn (goals .expression)
  let _ ← expect .closeParenToken
  finish .parenthesizedExpression start (.one .expression e)

/-- An element of an array or an argument. -/
def element : Reader Branch := do
  let start ← here
  match ← kind with
  | .dotDotDotToken =>
    next
    let e ← goals (.assignment true)
    finish .spreadElement start (.one .expression e)
  | .commaToken => finish .omittedExpression start .none
  | _ => goals (.assignment true)

def arrayLiteral : Reader Branch := do
  let start ← here
  let _ ← expect .openBracketToken
  let multiLine ← afterLineEnd
  let elements ← commaList .arrayElements (element goals)
  closeBracket .closeBracketToken
  finish .arrayLiteralExpression start (.many .elements elements) fun i => { i with multiLine }

/-- A member of an object. -/
def objectMember : Reader Branch := do
  let start ← here
  if ← skip? .dotDotDotToken then
    let e ← goals (.assignment true)
    return ← finish .spreadAssignment start (.one .expression e)
  let modifiers ← modifiers goals true
  if ← contextual? .getKeyword then return ← accessor goals .getAccessor start modifiers false
  if ← contextual? .setKeyword then return ← accessor goals .setAccessor start modifiers false
  let asterisk ← tokenNode? .asteriskToken
  let isName ← atName
  let name ← propertyName goals
  let question ← tokenNode? .questionToken
  let exclamation ← tokenNode? .exclamationToken
  if asterisk.isSome || (← isAtAny [.openParenToken, .lessThanToken]) then
    return ← method goals start modifiers asterisk name question exclamation (.expected "\x7b")
  let front := Parts.manyMaybe .modifiers modifiers ++ .one .name name ++ .maybe .question question
    ++ .maybe .exclamation exclamation
  if isName && !(← isAt .colonToken) then
    let equals ← tokenNode? .equalsToken
    let value ← if equals.isSome then pure (some (← allowingIn (goals (.assignment true))))
      else pure none
    finish .shorthandPropertyAssignment start
      (front ++ .maybe .equals equals ++ .maybe .initializer value)
  else
    let _ ← expect .colonToken
    let value ← allowingIn (goals (.assignment true))
    finish .propertyAssignment start (front ++ .one .initializer value)

def objectLiteral : Reader Branch := do
  let start ← here
  let _ ← expect .openBraceToken
  let multiLine ← afterLineEnd
  let members ← commaList .properties (objectMember goals) true
  closeBracket .closeBraceToken
  finish .objectLiteralExpression start (.many .members members) fun i => { i with multiLine }

/-! ## Accesses and calls -/

/-- Type arguments of an expression, if what follows shows that they are none of a comparison's halves. -/
def expressionTypeArguments? : Reader (Option Items) := attempt do
  if (← dialect).untyped then return none
  if (← splitLess) ≠ .lessThanToken then return none
  next
  let args ← commaList .typeArguments (goals .type)
  if (← joinGreater) ≠ .greaterThanToken then return none
  next
  match ← kind with
  | .openParenToken | .noSubstitutionTemplateLiteral | .templateHead => return some args
  | .lessThanToken | .greaterThanToken | .plusToken | .minusToken => return none
  | _ =>
    if ← afterLineEnd then return some args
    if ← atBinaryOperator then return some args
    if ← startsExpression then return none
    return some args

def argumentList : Reader Items := do
  let _ ← expect .openParenToken
  let args ← commaList .arguments
    (within (fun c => { c with noIn := false, inDecorator := false }) (element goals))
  let _ ← expect .closeParenToken
  return args

/-- Whether an access to a value belongs to the chain that the value is part of. -/
def continuesChain : Ast → Bool
  | .node i children => i.optional || (i.kind = .nonNullExpression && anyContinues children)
where
  /-- Whether one of the nodes is part of a chain. -/
  anyContinues : List Ast → Bool
    | [] => false
    | a :: rest => continuesChain a || anyContinues rest

def propertyAccess (start : Nat) (e : Branch) (chain : Option Branch) : Reader Branch := do
  let name ← memberName true true true
  let optional := chain.isSome || continuesChain e
  if optional && name.kind = .privateIdentifier then complainAt name.fullStart .privateInChain
  match e.kind, e.list? .typeArguments with
  | .expressionWithTypeArguments, some l => complainAt (l.start - 1) .accessAfterInstantiation
  | _, _ => pure ()
  finish .propertyAccessExpression start
    (.one .expression e ++ .maybe .chain chain ++ .one .name name) fun i => { i with optional }

/-- An access behind its opening bracket. -/
def elementAccess (start : Nat) (e : Branch) (chain : Option Branch) : Reader Branch := do
  let index ← if ← isAt .closeBracketToken then missingHere .identifier .emptyElementAccess
    else allowingIn (goals .expression)
  let _ ← expect .closeBracketToken
  let optional := chain.isSome || continuesChain e
  finish .elementAccessExpression start
    (.one .expression e ++ .maybe .chain chain ++ .one .arguments index) fun i => { i with optional }

/-- Takes an expression with type arguments apart. -/
def splitTypeArguments (e : Branch) : Branch × Option Items :=
  match e.kind, e.children, e.info.lists with
  | .expressionWithTypeArguments, inner :: args, [l] =>
    (inner, some ⟨args, l.start, l.stop, l.trailingComma, l.missing⟩)
  | _, _, _ => (e, none)

def taggedTemplate (start : Nat) (tag : Branch) (chain : Option Branch) (args : Option Items) : Reader Branch := do
  let template ← if ← isAt .noSubstitutionTemplateLiteral then do
      rereadTemplate false
      literal
    else templateOf .templateExpression .templateSpan true .expression (allowingIn (goals .expression))
  finish .taggedTemplateExpression start
    (.one .tag tag ++ .maybe .chain chain ++ .manyMaybe .typeArguments args ++ .one .template template)
    fun i => { i with optional := chain.isSome || tag.info.optional }

/-- Accesses behind a value, at most `fuel`; without `chained` none that stops at a missing value. -/
def accesses (start : Nat) (chained : Bool) : Nat → Branch → Reader Branch
  | 0, e => return e
  | fuel + 1, e => do
    let chains ← if chained && (← isAt .questionDotToken) then
        thenIs (do
          if ← atWord then return true
          if ← isAt .openBracketToken then return true
          atTemplate)
      else pure false
    let chain ← if chains then tokenNode? .questionDotToken else pure none
    let dotted ← if chains then atWord else skip? .dotToken
    if dotted then
      let a ← propertyAccess start e chain
      accesses start chained fuel a
    else
      let bracket ← if chains || !(← context).inDecorator then skip? .openBracketToken else pure false
      if bracket then
        let a ← elementAccess goals start e chain
        accesses start chained fuel a
      else if ← atTemplate then
        let (tag, args) := if chains then (e, none) else splitTypeArguments e
        let a ← taggedTemplate goals start tag chain args
        accesses start chained fuel a
      else if chains then return e
      else if (← isAt .exclamationToken) && !(← afterLineEnd) then
        next
        let a ← finish .nonNullExpression start (.one .expression e)
        accesses start chained fuel a
      else
        match ← expressionTypeArguments? goals with
        | some args =>
          let a ← finish .expressionWithTypeArguments start
            (.one .expression e ++ .many .typeArguments args)
          accesses start chained fuel a
        | none => return e

/-- Accesses and calls behind a value, at most `fuel`. -/
def calls (start : Nat) : Nat → Branch → Reader Branch
  | 0, e => return e
  | fuel + 1, e => do
    let e ← accesses goals start true (fuel + 1) e
    let chain ← tokenNode? .questionDotToken
    let args ← if chain.isSome then expressionTypeArguments? goals else pure none
    if chain.isSome && (← atTemplate) then
      let a ← taggedTemplate goals start e chain args
      calls start fuel a
    else if args.isSome || (← isAt .openParenToken) then
      let (callee, own) := if chain.isSome then (e, none) else splitTypeArguments e
      let list ← argumentList goals
      let optional := chain.isSome || continuesChain callee
      let a ← finish .callExpression start
        (.one .expression callee ++ .maybe .chain chain
          ++ .manyMaybe .typeArguments (if own.isSome then own else args) ++ .many .arguments list)
        fun i => { i with optional }
      calls start fuel a
    else if chain.isSome then
      let name ← missing .identifier .identifierExpected
      finish .propertyAccessExpression start
        (.one .expression e ++ .maybe .chain chain ++ .one .name name) fun i => { i with optional := true }
    else return e

/-- An expression that decorates. Where `await` is an operator it cannot be one and is passed over. -/
def decoration : Reader Branch := do
  if (← context).awaits && (← isAt .awaitKeyword) then
    let start ← here
    let fuel ← budget
    let name ← nameOr .expressionExpected
    next
    calls goals start fuel (← accesses goals start true fuel name)
  else goals .access

/-- The making of an object, or the word `new` with a name behind a dot. -/
def newExpression : Reader Branch := do
  let start ← here
  let _ ← expect .newKeyword
  if ← skip? .dotToken then
    let name ← word
    return ← finish .metaProperty start (.one .name name) fun i => { i with token := .newKeyword }
  let calleeStart ← here
  let e ← accesses goals calleeStart false (← budget) (← goals .primary)
  let (callee, args) := splitTypeArguments e
  if ← isAt .questionDotToken then complain (.chainFromNew (← sourceText callee))
  let list ← if ← isAt .openParenToken then pure (some (← argumentList goals)) else pure none
  finish .newExpression start
    (.one .expression callee ++ .manyMaybe .typeArguments args ++ .manyMaybe .arguments list)

/-- A value without anything behind it. -/
def primary : Reader Branch := do
  match ← kind with
  | .noSubstitutionTemplateLiteral => do
    if (← state).token.malformed then rereadTemplate true
    literal
  | .numericLiteral | .bigIntLiteral | .stringLiteral => literal
  | .thisKeyword | .superKeyword | .nullKeyword | .trueKeyword | .falseKeyword => tokenNode
  | .openParenToken => parenthesized goals
  | .openBracketToken => arrayLiteral goals
  | .openBraceToken => objectLiteral goals
  | .asyncKeyword => do
    if ← thenSameLine (isAt .functionKeyword) then functionExpression goals
    else nameOr .expressionExpected
  | .atToken => do
    let start ← here
    let modifiers ← modifiers goals true
    if ← isAt .classKeyword then classLike goals .classExpression start modifiers
    else
      complainAt (← here) .expressionExpected true
      finish .missingDeclaration start (.manyMaybe .modifiers modifiers)
  | .classKeyword => do classLike goals .classExpression (← here) none
  | .functionKeyword => functionExpression goals
  | .newKeyword => newExpression goals
  | .slashToken | .slashEqualsToken => do
    accept (fun s => s.token.asPattern s.source) fun _ h => h.asPattern
    literal
  | .templateHead =>
    templateOf .templateExpression .templateSpan false .expression (allowingIn (goals .expression))
  | .privateIdentifier => privateName
  | _ => nameOr .expressionExpected

end LintRepair.Syntax.Grammar.Reader
