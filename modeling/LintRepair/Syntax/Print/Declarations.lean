import LintRepair.Syntax.Print.Statements

/-!
# Printed declarations
-/
namespace LintRepair.Syntax.Print.Printer

variable (emit : Ast → Printer Unit)

def heritage (a : Ast) : Printer Unit := listOf emit a .bare .heritage

def classLike (a : Ast) : Printer Unit := do
  let place ← modifiers emit a true
  tokenOf .classKeyword place a
  spacedPart emit a .name
  typeParameters emit a
  heritage emit a
  space
  bracedMembers emit a .lines

/-- Modifiers, a word and a name. -/
def named (k : Kind) (a : Ast) : Printer Unit := do
  modifiersOf emit a
  token k
  spacedPart emit a .name

/-! ## Members -/

def signatureMember (a : Ast) : Printer Unit := do
  modifiersOf emit a
  part emit a .name
  part emit a .question
  signature emit a
  semicolon

def property (a : Ast) : Printer Unit := do
  modifiersOf emit a true
  part emit a .name
  part emit a .question
  part emit a .exclamation
  annotated emit a
  initialized emit a (endOf a [.type, .question, .name])
  semicolon

/-! ## Namespaces and modules -/

/-- The name of a namespace and those of the namespaces that are its whole body, then the body. -/
def namespaceRest : Nat → Ast → Printer Unit
  | 0, _ => pure ()
  | fuel + 1, a => do
    part emit a .name
    match a.child? .body with
    | none => semicolon
    | some body =>
      if body.kind = .moduleDeclaration then
        token .dotToken
        namespaceRest fuel body
      else
        space
        emit body

def namespaceLike (a : Ast) : Printer Unit := do
  modifiersOf emit a
  if a.info.token ≠ .globalKeyword then
    token (if a.info.token = .namespaceKeyword then .namespaceKeyword else .moduleKeyword)
    space
  namespaceRest emit (a.stop - a.fullStart + 1) a

/-- The name of a module with its attributes. -/
def moduleSource (a : Ast) : Printer Unit := do
  part emit a .module
  spacedPart emit a .attributes

def importEquals (a : Ast) : Printer Unit := do
  let place ← modifiers emit a false
  let stop ← tokenAt .importKeyword place a
  space
  if a.info.typeOnly then
    tokenOf .typeKeyword stop a
    space
  part emit a .name
  space
  tokenOf .equalsToken (endOf a [.name]) a
  spacedPart emit a .module
  semicolon

def importDeclaration (a : Ast) : Printer Unit := do
  let place ← modifiers emit a false
  tokenOf .importKeyword place a
  space
  if a.has .clauses then
    part emit a .clauses
    space
    tokenOf .fromKeyword (endOf a [.clauses]) a
    space
  moduleSource emit a
  semicolon

def importClause (a : Ast) : Printer Unit := do
  if a.info.typeOnly then
    tokenOf .typeKeyword a.fullStart a
    space
  part emit a .name
  if a.has .name && a.has .bindings then
    tokenOf .commaToken (endOf a [.name]) a
    space
  part emit a .bindings

/-- Everything a module exports, under one name. -/
def starAs (a : Ast) : Printer Unit := do
  let stop ← tokenAt .asteriskToken a.fullStart a
  space
  tokenOf .asKeyword stop a
  spacedPart emit a .name

def specifier (a : Ast) : Printer Unit := do
  if a.info.typeOnly then
    token .typeKeyword
    space
  if a.has .propertyName then
    part emit a .propertyName
    space
    tokenOf .asKeyword (endOf a [.propertyName]) a
    space
  part emit a .name

def specifiers (a : Ast) : Printer Unit := do
  token .openBraceToken
  listOf emit a .specifiers .elements
  token .closeBraceToken

def exportDeclaration (a : Ast) : Printer Unit := do
  modifiersOf emit a
  let stop ← tokenAt .exportKeyword a.fullStart a
  space
  let stop ← if a.info.typeOnly then do
      let stop ← tokenAt .typeKeyword stop a
      space
      pure stop
    else pure stop
  let stop ← match a.child? .clauses with
    | some clause => do
      emit clause
      pure clause.stop
    | none => tokenAt .asteriskToken stop a
  if a.has .module then
    space
    tokenOf .fromKeyword stop a
    space
    moduleSource emit a
  semicolon

def exportAssignment (a : Ast) : Printer Unit := do
  modifiersOf emit a
  let stop ← tokenAt .exportKeyword a.fullStart a
  space
  tokenOf a.info.token stop a
  spacedPart emit a .expression
  semicolon

def exportAsNamespace (a : Ast) : Printer Unit := do
  let stop ← tokenAt .exportKeyword a.fullStart a
  space
  let stop ← tokenAt .asKeyword stop a
  space
  tokenOf .namespaceKeyword stop a
  spacedPart emit a .name
  semicolon

/-- Prints a declaration or a part of one. -/
def declaration (a : Ast) : Printer Unit := do
  match a.kind with
  | .functionDeclaration => do
    modifiersOf emit a
    functionHead emit a
    bodyOrEnd emit a
  | .classDeclaration | .classExpression => classLike emit a
  | .heritageClause => do
    between a.info.token
    listOf emit a .commas .elements
  | .interfaceDeclaration => do
    named emit .interfaceKeyword a
    typeParameters emit a
    heritage emit a
    space
    bracedMembers emit a .lines
  | .typeAliasDeclaration => do
    named emit .typeKeyword a
    typeParameters emit a
    between .equalsToken
    part emit a .type
    semicolon
  | .enumDeclaration => do
    named emit .enumKeyword a
    space
    bracedMembers emit a .enumMembers
  | .enumMember => do
    part emit a .name
    initialized emit a (endOf a [.name])
  | .propertySignature => do
    modifiersOf emit a
    part emit a .name
    part emit a .question
    annotated emit a
    semicolon
  | .propertyDeclaration => property emit a
  | .methodSignature | .callSignature => signatureMember emit a
  | .constructSignature => do
    token .newKeyword
    space
    signature emit a
    semicolon
  | .indexSignature => do
    modifiersOf emit a
    listOf emit a .indices .parameters
    annotated emit a
    semicolon
  | .constructorDeclaration => do
    modifiersOf emit a
    token .constructorKeyword
    signature emit a
    bodyOrEnd emit a
  | .classStaticBlockDeclaration => do
    token .staticKeyword
    bodyOrEnd emit a
  | .moduleDeclaration => namespaceLike emit a
  | .moduleBlock => do
    let inLine ← if a.has .statements then pure false else sameLine a.start a.stop
    bracedStatements emit a inLine
  | .importEqualsDeclaration => importEquals emit a
  | .importDeclaration => importDeclaration emit a
  | .importClause => importClause emit a
  | .namespaceImport | .namespaceExport => starAs emit a
  | .namedImports | .namedExports => specifiers emit a
  | .importSpecifier | .exportSpecifier => specifier emit a
  | .importAttributes => do
    tokenOf a.info.token a.fullStart a
    space
    listOf emit a .attributes .elements
  | .importAttribute => do
    part emit a .name
    memberValue emit a
  | .externalModuleReference => do
    token .requireKeyword
    token .openParenToken
    part emit a .expression
    token .closeParenToken
  | .exportDeclaration => exportDeclaration emit a
  | .exportAssignment => exportAssignment emit a
  | .namespaceExportDeclaration => exportAsNamespace emit a
  | _ => statement emit a

end LintRepair.Syntax.Print.Printer
