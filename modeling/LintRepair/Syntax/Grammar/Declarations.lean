import LintRepair.Syntax.Grammar.Statements

/-!
# Declarations

Functions, types, enumerations and namespaces, and what modules import and export.
-/
namespace LintRepair.Syntax.Grammar.Reader

variable (goals : Goals)

def functionDeclaration (start : Nat) (modifiers : Option Items) : Reader Branch := do
  let _ ← expect .functionKeyword
  let asterisk ← tokenNode? .asteriskToken
  let name ← if hasModifier modifiers .defaultKeyword then declaredName?
    else pure (some (← declaredName none))
  let form := formOf asterisk modifiers
  let typeParameters ← typeParameters? goals
  let exported := hasModifier modifiers .exportKeyword
  let (parameters, type, body) ← within (fun c => { c with awaits := c.awaits || exported }) (do
    let parameters ← parameters goals form
    let type ← resultType? goals false false
    let body ← functionBody goals form false .bodyOrSemicolonExpected
    return (parameters, type, body))
  finish .functionDeclaration start
    (.manyMaybe .modifiers modifiers ++ .maybe .asterisk asterisk ++ .maybe .name name
      ++ .manyMaybe .typeParameters typeParameters ++ .many .parameters parameters
      ++ .maybe .type type ++ .maybe .body body)

def interfaceDeclaration (start : Nat) (modifiers : Option Items) : Reader Branch := do
  let _ ← expect .interfaceKeyword
  let name ← name
  let typeParameters ← typeParameters? goals
  let heritage ← heritage? goals
  let members ← typeMembers goals
  finish .interfaceDeclaration start
    (.manyMaybe .modifiers modifiers ++ .one .name name ++ .manyMaybe .typeParameters typeParameters
      ++ .manyMaybe .heritage heritage ++ .many .members members)

def aliasDeclaration (start : Nat) (modifiers : Option Items) : Reader Branch := do
  let _ ← expect .typeKeyword
  if ← afterLineEnd then complain .lineBreakMisplaced
  let name ← name
  let typeParameters ← typeParameters? goals
  let _ ← expect .equalsToken
  let own ← if ← isAt .intrinsicKeyword then wordType? else pure none
  let type ← match own with
    | some a => pure a
    | none => goals .type
  endStatement
  finish .typeAliasDeclaration start
    (.manyMaybe .modifiers modifiers ++ .one .name name ++ .manyMaybe .typeParameters typeParameters
      ++ .one .type type)

def enumMember : Reader Branch := do
  let start ← here
  let name ← propertyName goals
  let value ← allowingIn (initializer? goals)
  finish .enumMember start (.one .name name ++ .maybe .initializer value)

def enumDeclaration (start : Nat) (modifiers : Option Items) : Reader Branch := do
  let _ ← expect .enumKeyword
  let name ← name
  let members ← if ← expect .openBraceToken then do
      let members ← within (fun c => { c with yields := false, awaits := false })
        (commaList .enumMembers (enumMember goals))
      let _ ← expect .closeBraceToken
      pure members
    else noItems
  finish .enumDeclaration start
    (.manyMaybe .modifiers modifiers ++ .one .name name ++ .many .members members)

/-! ## Namespaces -/

def moduleBlock : Reader Branch := do
  let start ← here
  let statements ← if ← expect .openBraceToken then do
      let statements ← list .blockStatements (goals .statement)
      let _ ← expect .closeBraceToken
      pure statements
    else noItems
  finish .moduleBlock start (.many .statements statements)

/-- What follows a namespace's name: its body, or a dot and a namespace inside it. -/
def namespaceBody : Reader Branch := do
  if ← skip? .dotToken then
    let start ← here
    let name ← word
    let body ← goals .namespaceBody
    finish .moduleDeclaration start (.one .name name ++ .one .body body)
      fun i => { i with token := .namespaceKeyword }
  else moduleBlock goals

def moduleDeclaration (start : Nat) (modifiers : Option Items) : Reader Branch := do
  let word ← kind
  let front := Parts.manyMaybe .modifiers modifiers
  let isGlobal := word = .globalKeyword
  if !isGlobal then next
  if isGlobal || (word = .moduleKeyword && (← isAt .stringLiteral)) then
    let name ← if isGlobal then name else literal
    let body ← if ← isAt .openBraceToken then pure (some (← moduleBlock goals))
      else do
        endStatement
        pure none
    finish .moduleDeclaration start (front ++ .one .name name ++ .maybe .body body)
      fun i => { i with token := word }
  else
    let name ← name
    let body ← namespaceBody goals
    finish .moduleDeclaration start (front ++ .one .name name ++ .one .body body)
      fun i => { i with token := word }

/-! ## Imports and exports -/

/-- The name of a module; any expression is taken for one. -/
def moduleName : Reader Branch := do
  if ← isAt .stringLiteral then literal else goals .expression

/-- A name by which a module exports something. -/
def exportName (word : Reader Branch) : Reader Branch := do
  if ← isAt .stringLiteral then literal else word

def atExportName : Reader Bool := do return (← atWord) || (← isAt .stringLiteral)

/-- A name in the braces of an import or export, and whether its last word may be no name. -/
structure Specifier where
  typeOnly : Bool := false
  propertyName : Option Branch := none
  name : Branch
  /-- The extent of the word that may not stand for a name here. -/
  reserved : Option Nat := none

/-- Where the current word starts, if it is reserved here. -/
def reservedHere : Reader (Option Nat) := do
  if (← kind).isListedWord && !(← atName) then return some (← tokenStart) else return none

/-- A specifier behind the first word of its name. -/
def specifierRest (first : Branch) (reserved : Option Nat) : Reader Specifier := do
  let named : Reader (Branch × Option Nat) := do
    if ← isAt .stringLiteral then return (← literal, reserved)
    let r ← reservedHere
    return (← word, r)
  let renamed (s : Specifier) : Reader Specifier := do
    if ← isAt .asKeyword then
      next
      let r ← if ← isAt .stringLiteral then pure s.reserved else reservedHere
      let name ← exportName word
      return { s with propertyName := some s.name, name, reserved := r }
    else return s
  if first.kind = .identifier && first.text.toString = "type" then
    if ← isAt .asKeyword then
      let firstAs ← word
      if ← isAt .asKeyword then
        let secondAs ← word
        if ← atExportName then
          let (name, r) ← named
          return ⟨true, some firstAs, name, r⟩
        return ⟨false, some first, secondAs, reserved⟩
      if ← atExportName then
        let (name, r) ← named
        return ⟨false, some first, name, r⟩
      return ⟨true, none, firstAs, reserved⟩
    if ← atExportName then
      let (name, r) ← named
      return ← renamed ⟨true, none, name, r⟩
  renamed ⟨false, none, first, reserved⟩

/-- A name in the braces of an import or export. -/
def specifier (k : Kind) : Reader Branch := do
  let start ← here
  let reserved ← reservedHere
  let first ← exportName word
  let s ← specifierRest first reserved
  let mut name := s.name
  if k = .importSpecifier then
    if name.kind ≠ .identifier then
      complainAt name.start .identifierExpected
      name := .node { kind := .identifier, fullStart := name.fullStart, start := name.fullStart,
                      stop := name.fullStart } []
    else
      match s.reserved with
      | some place => complainAt place .identifierExpected
      | none => pure ()
  finish k start (.maybe .propertyName s.propertyName ++ .one .name name)
    fun i => { i with typeOnly := s.typeOnly }

def specifiers (k elementKind : Kind) : Reader Branch := do
  let start ← here
  let items ← bracketed .specifiers (specifier elementKind) .openBraceToken .closeBraceToken
  finish k start (.many .elements items)

/-- The names that an import binds. -/
def importClause (start : Nat) (first : Option Branch) (typeOnly : Bool) : Reader Branch := do
  let more ← if first.isNone then pure true else skip? .commaToken
  let bindings ← if !more then pure none
    else if ← isAt .asteriskToken then do
      let inner ← here
      next
      let _ ← expect .asKeyword
      let name ← name
      pure (some (← finish .namespaceImport inner (.one .name name)))
    else pure (some (← specifiers .namedImports .importSpecifier))
  finish .importClause start (.maybe .name first ++ .maybe .bindings bindings)
    fun i => { i with typeOnly }

/-- The attributes behind the name of a module, on its line. -/
def moduleAttributes : Reader (Option Branch) := do
  let word ← kind
  if (word = .withKeyword || word = .assertKeyword) && !(← afterLineEnd) then
    return some (← importAttributes goals word false)
  else return none

/-- What an imported name stands for. -/
def moduleReference : Reader Branch := do
  let external ← if ← isAt .requireKeyword then thenAtAny [.openParenToken] else pure false
  if !external then return ← dottedName false none
  let start ← here
  next
  let _ ← expect .openParenToken
  let e ← moduleName goals
  let _ ← expect .closeParenToken
  finish .externalModuleReference start (.one .expression e)

def importDeclaration (start : Nat) (modifiers : Option Items) : Reader Branch := do
  let _ ← expect .importKeyword
  let clauseStart ← here
  let front := Parts.manyMaybe .modifiers modifiers
  let first ← if ← atName then pure (some (← name)) else pure none
  let isType ←
    if first.any fun a => a.text.toString = "type" then do
      let fromFollows ← isAt .fromKeyword
      let asName ← if !fromFollows then pure true
        else if ← atName then thenAtAny [.fromKeyword, .equalsToken] else pure false
      pure (asName && ((← atName) || (← isAtAny [.asteriskToken, .openBraceToken])))
    else pure false
  let first ← if isType then
      if ← atName then pure (some (← name)) else pure none
    else pure first
  match first with
  | some target =>
    if !(← isAtAny [.commaToken, .fromKeyword]) then
      let _ ← expect .equalsToken
      let reference ← moduleReference goals
      endStatement
      return ← finish .importEqualsDeclaration start
        (front ++ .one .name target ++ .one .module reference) fun i => { i with typeOnly := isType }
  | none => pure ()
  let clause ← if first.isSome || (← isAtAny [.asteriskToken, .openBraceToken]) then do
      let c ← importClause clauseStart first isType
      let _ ← expect .fromKeyword
      pure (some c)
    else pure none
  let module_ ← moduleName goals
  let attributes ← moduleAttributes goals
  endStatement
  finish .importDeclaration start
    (front ++ .maybe .clauses clause ++ .one .module module_ ++ .maybe .attributes attributes)

/-- An export of names, behind its word. -/
def exportDeclaration (start : Nat) (modifiers : Option Items) : Reader Branch :=
  within (fun c => { c with awaits := true }) do
    let typeOnly ← skip? .typeKeyword
    let inner ← here
    let (clause, module_) : Option Branch × Option Branch ←
      if ← skip? .asteriskToken then do
        let clause ← if ← skip? .asKeyword then do
            let name ← exportName word
            pure (some (← finish .namespaceExport inner (.one .name name)))
          else pure none
        let _ ← expect .fromKeyword
        pure (clause, some (← moduleName goals))
      else do
        let clause ← specifiers .namedExports .exportSpecifier
        let sourced ← if ← isAt .fromKeyword then pure true
          else if ← isAt .stringLiteral then pure !(← afterLineEnd) else pure false
        if sourced then
          let _ ← expect .fromKeyword
          pure (some clause, some (← moduleName goals))
        else pure (some clause, none)
    let attributes ← if module_.isSome then moduleAttributes goals else pure none
    endStatement
    finish .exportDeclaration start
      (.manyMaybe .modifiers modifiers ++ .maybe .clauses clause ++ .maybe .module module_
        ++ .maybe .attributes attributes) fun i => { i with typeOnly }

/-- The value that a module exports as a whole. -/
def exportAssignment (start : Nat) (modifiers : Option Items) : Reader Branch :=
  within (fun c => { c with awaits := true }) do
    let k ← kind
    if !(← skip? .equalsToken) then
      let _ ← expect .defaultKeyword
    let e ← goals (.assignment true)
    endStatement
    finish .exportAssignment start (.manyMaybe .modifiers modifiers ++ .one .expression e)
      fun i => { i with token := k }

/-- An export behind its word. -/
def exported (start : Nat) (modifiers : Option Items) : Reader Branch := do
  next
  match ← kind with
  | .defaultKeyword | .equalsToken => exportAssignment goals start modifiers
  | .asKeyword => do
    next
    let _ ← expect .namespaceKeyword
    let name ← name
    endStatement
    finish .namespaceExportDeclaration start (.manyMaybe .modifiers modifiers ++ .one .name name)
  | _ => exportDeclaration goals start modifiers

/-! ## The choice -/

/-- A declaration with the modifiers before it. -/
def declaration : Reader Branch := do
  let start ← here
  let modifiers ← modifiers goals true
  match ← kind with
  | .varKeyword | .letKeyword | .constKeyword | .usingKeyword | .awaitKeyword =>
    variableStatement goals start modifiers
  | .functionKeyword => functionDeclaration goals start modifiers
  | .classKeyword => classLike goals .classDeclaration start modifiers
  | .interfaceKeyword => interfaceDeclaration goals start modifiers
  | .typeKeyword => aliasDeclaration goals start modifiers
  | .enumKeyword => enumDeclaration goals start modifiers
  | .globalKeyword | .moduleKeyword | .namespaceKeyword => moduleDeclaration goals start modifiers
  | .importKeyword => importDeclaration goals start modifiers
  | .exportKeyword => exported goals start modifiers
  | _ => do
    complainAt (← here) .declarationExpected true
    finish .missingDeclaration start (.manyMaybe .modifiers modifiers)

def statement : Reader Branch := do
  let start ← here
  match ← kind with
  | .semicolonToken => do
    next
    finish .emptyStatement start .none
  | .openBraceToken => plainBlock goals
  | .varKeyword => variableStatement goals start none
  | .letKeyword => do
    if ← thenIs (do return (← atDeclaredName) || (← isAtAny [.openBraceToken, .openBracketToken])) then
      variableStatement goals start none
    else expressionStatement goals
  | .awaitKeyword => do
    if ← atAwaitUsing then variableStatement goals start none else expressionStatement goals
  | .usingKeyword => do
    if ← atUsing then variableStatement goals start none else expressionStatement goals
  | .functionKeyword => functionDeclaration goals start none
  | .classKeyword => classLike goals .classDeclaration start none
  | .ifKeyword => ifStatement goals
  | .doKeyword => doStatement goals
  | .whileKeyword => headed goals .whileStatement
  | .forKeyword => forStatement goals
  | .continueKeyword => jump .continueStatement
  | .breakKeyword => jump .breakStatement
  | .returnKeyword => returnStatement goals
  | .withKeyword => headed goals .withStatement
  | .switchKeyword => switchStatement goals
  | .throwKeyword => throwStatement goals
  | .tryKeyword | .catchKeyword | .finallyKeyword => tryStatement goals
  | .debuggerKeyword => do
    next
    endStatement
    finish .debuggerStatement start .none
  | .atToken => declaration goals
  | .asyncKeyword | .interfaceKeyword | .typeKeyword | .moduleKeyword | .namespaceKeyword
  | .declareKeyword | .constKeyword | .enumKeyword | .exportKeyword | .importKeyword
  | .privateKeyword | .protectedKeyword | .publicKeyword | .abstractKeyword | .accessorKeyword
  | .staticKeyword | .readonlyKeyword | .globalKeyword => do
    if ← startsDeclaration then declaration goals else expressionStatement goals
  | _ => expressionStatement goals

end LintRepair.Syntax.Grammar.Reader
