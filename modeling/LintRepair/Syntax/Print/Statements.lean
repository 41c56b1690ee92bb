import LintRepair.Syntax.Print.Expressions

/-!
# Printed statements
-/
namespace LintRepair.Syntax.Print.Printer

variable (emit : Ast → Printer Unit)

/-- The statement of a branch or loop: a block on the same line, anything else on the next one. -/
def embedded (owner : Ast) (l : Label) : Printer Unit :=
  match owner.child? l with
  | some a =>
    if a.kind = .block then do
      space
      emit a
    else do
      newLine
      indented (emit a)
  | none => pure ()

/-- A word and an expression in brackets. -/
def headed (k : Kind) (place : Nat) (a : Ast) : Printer Unit := do
  let stop ← tokenAt k place a
  space
  tokenOf .openParenToken stop a
  part emit a .expression
  tokenOf .closeParenToken (endOf a [.expression]) a

def ifStatement (a : Ast) : Printer Unit := do
  headed emit .ifKeyword a.fullStart a
  embedded emit a .statement
  match a.child? .otherwise with
  | some branch => do
    newLine
    tokenOf .elseKeyword (endOf a [.statement]) a
    if branch.kind = .ifStatement then
      space
      emit branch
    else embedded emit a .otherwise
  | none => pure ()

def doStatement (a : Ast) : Printer Unit := do
  tokenOf .doKeyword a.fullStart a
  embedded emit a .statement
  if (a.child? .statement).any (·.kind = .block) then space else newLine
  headed emit .whileKeyword (endOf a [.statement]) a
  semicolon

/-- A loop with three parts, each of which may be left out. -/
def forStatement (a : Ast) : Printer Unit := do
  let stop ← tokenAt .forKeyword a.fullStart a
  space
  let stop ← tokenAt .openParenToken stop a
  part emit a .initializer
  let stop ← tokenAt .semicolonToken (((a.child? .initializer).map (·.stop)).getD stop) a
  spacedPart emit a .condition
  let stop ← tokenAt .semicolonToken (((a.child? .condition).map (·.stop)).getD stop) a
  spacedPart emit a .increment
  tokenOf .closeParenToken (((a.child? .increment).map (·.stop)).getD stop) a
  embedded emit a .statement

def forEachStatement (k : Kind) (a : Ast) : Printer Unit := do
  let stop ← tokenAt .forKeyword a.fullStart a
  space
  if a.has .await then
    part emit a .await
    space
  tokenOf .openParenToken stop a
  part emit a .initializer
  space
  tokenOf k (endOf a [.initializer]) a
  spacedPart emit a .expression
  tokenOf .closeParenToken (endOf a [.expression]) a
  embedded emit a .statement

def jump (k : Kind) (l : Label) (a : Ast) : Printer Unit := do
  tokenOf k a.fullStart a
  spacedPart emit a l
  semicolon

def switchStatement (a : Ast) : Printer Unit := do
  headed emit .switchKeyword a.fullStart a
  spacedPart emit a .block

def caseBlock (a : Ast) : Printer Unit := do
  tokenOf .openBraceToken a.fullStart a
  listOf emit a .lines .clauses
  let _ ← tokenAt .closeBraceToken (((a.list? .clauses).map (·.stop)).getD a.stop) a true

/-- The colon of a clause and its statements; a single one stays on the line of the clause. -/
def clauseRest (place : Nat) (a : Ast) : Printer Unit := do
  let inLine ← match a.childrenOf .statements with
    | [s] => sameLine a.start s.start
    | _ => pure false
  if inLine then
    token .colonToken
    space
    listOf emit a .clauseLine .statements
  else
    tokenOf .colonToken place a
    listOf emit a .clauseLines .statements

def tryStatement (a : Ast) : Printer Unit := do
  tokenOf .tryKeyword a.fullStart a
  spacedPart emit a .block
  if a.has .catchClause then
    newLine
    part emit a .catchClause
  if a.has .finallyBlock then
    newLine
    tokenOf .finallyKeyword (endOf a [.catchClause, .block]) a
    spacedPart emit a .finallyBlock

def catchClause (a : Ast) : Printer Unit := do
  let stop ← tokenAt .catchKeyword a.fullStart a
  space
  if a.has .declarations then
    tokenOf .openParenToken stop a
    part emit a .declarations
    tokenOf .closeParenToken (endOf a [.declarations]) a
    space
  part emit a .block

def variableList (a : Ast) : Printer Unit := do
  if a.info.token = .awaitKeyword then
    token .awaitKeyword
    space
    token .usingKeyword
  else token a.info.token
  space
  listOf emit a .commas .declarations

/-- Prints a statement or a part of one. -/
def statement (a : Ast) : Printer Unit := do
  match a.kind with
  | .block => do
    let inLine ← if a.info.multiLine || a.has .statements then pure false else sameLine a.start a.stop
    bracedStatements emit a inLine
  | .emptyStatement | .semicolonClassElement => semicolon
  | .variableStatement => do
    modifiersOf emit a
    part emit a .declarations
    semicolon
  | .variableDeclarationList => variableList emit a
  | .variableDeclaration => do
    part emit a .name
    part emit a .exclamation
    annotated emit a
    initialized emit a (endOf a [.type, .name])
  | .expressionStatement => do
    part emit a .expression
    if !(← get).data then semicolon
  | .ifStatement => ifStatement emit a
  | .doStatement => doStatement emit a
  | .whileStatement => do
    headed emit .whileKeyword a.fullStart a
    embedded emit a .statement
  | .withStatement => do
    headed emit .withKeyword a.fullStart a
    embedded emit a .statement
  | .forStatement => forStatement emit a
  | .forInStatement => forEachStatement emit .inKeyword a
  | .forOfStatement => forEachStatement emit .ofKeyword a
  | .continueStatement => jump emit .continueKeyword .target a
  | .breakStatement => jump emit .breakKeyword .target a
  | .returnStatement => jump emit .returnKeyword .expression a
  | .throwStatement => jump emit .throwKeyword .expression a
  | .switchStatement => switchStatement emit a
  | .caseBlock => caseBlock emit a
  | .caseClause => do
    tokenOf .caseKeyword a.fullStart a
    spacedPart emit a .expression
    clauseRest emit (endOf a [.expression]) a
  | .defaultClause => do
    let stop ← tokenAt .defaultKeyword a.fullStart a
    clauseRest emit stop a
  | .labeledStatement => do
    part emit a .target
    tokenOf .colonToken (endOf a [.target]) a
    spacedPart emit a .statement
  | .tryStatement => tryStatement emit a
  | .catchClause => catchClause emit a
  | .debuggerStatement => do
    token .debuggerKeyword
    semicolon
  | _ => expression emit a

end LintRepair.Syntax.Print.Printer
