import LintRepair.Rules.Checks

/-!
# The built-in repairs

Each repair turns a flagged node into edits, or says why it cannot. It looks at the node as it was parsed and
at the text that the node has now.
-/
namespace LintRepair.Rules

open Syntax

abbrev Attempt := Except Thrown

def declined (reason : String) : Attempt Outcome := .ok (.declined reason)

def applied (edits : List Edit) : Attempt Outcome := .ok (.applied edits)

/-- A failure of the tree or of a snippet. -/
def orThrow {α : Type} (r : Except Fault α) : Attempt α := r.mapError .fault

namespace Context

/-- The flagged node as it was parsed. -/
def parsed? (c : RepairContext SourceFile) : Attempt (Option (SourceFile × Placed)) := do
  match ← orThrow (c.tree.origin c.node), c.parsed with
  | some place, some f => return (f.ast.at? place).map fun a => (f, ⟨place, a⟩)
  | _, _ => return none

/-- The flagged node as it was parsed, if it is of the given kind. -/
def flagged? (c : RepairContext SourceFile) (k : Kind) : Attempt (Option (SourceFile × Placed)) :=
  return (← parsed? c).filter fun n => n.2.ast.kind = k

def textOf (c : RepairContext SourceFile) (h : Handle) : Attempt Text := orThrow (c.tree.textOf h)

end Context

def curly (c : RepairContext SourceFile) : Attempt Outcome := do
  match ← Context.parsed? c with
  | none => declined "flagged node has no syntax information"
  | some (_, body) =>
    if body.ast.kind = .block then declined "body is already a block"
    else
      let text ← Context.textOf c c.node
      let block ← orThrow (c.fragments.statement (Text.ofString "\x7b " ++ text ++ Text.ofString " \x7d"))
      applied [.replace c.node block]

def defaultCase (c : RepairContext SourceFile) : Attempt Outcome := do
  match ← Context.flagged? c .switchStatement with
  | none => declined "flagged node is not a switch statement"
  | some (_, statement) =>
    if hasDefault statement then declined "switch already has a default clause"
    else match (clausesOf statement).getLast? with
      | none => declined "switch has no clauses to follow"
      | some clause =>
        match c.tree.handleAt? clause.place with
        | none => declined "last clause is not addressable"
        | some h =>
          let added ← orThrow (c.fragments.clause (Text.ofString "default:\n    break;"))
          applied [.insertAfter h added none]

def eqeqeq (c : RepairContext SourceFile) : Attempt Outcome := do
  match ← Context.flagged? c .binaryExpression with
  | none => declined "flagged node is not a binary expression"
  | some (_, binary) =>
    match binary.child? .operator with
    | none => declined "operator is already strict"
    | some operator =>
      match strictForm? operator.ast.kind with
      | none => declined "operator is already strict"
      | some strict =>
        match c.tree.handleAt? operator.place with
        | none => declined "operator token is not addressable"
        | some h =>
          let mended ← orThrow (c.fragments.binaryOperator (Text.ofString strict))
          applied [.replace h mended]

def noDebugger (c : RepairContext SourceFile) : Attempt Outcome := do
  match ← Context.flagged? c .debuggerStatement with
  | none => declined "flagged node is not a debugger statement"
  | some (f, statement) =>
    if (f.around statement.place).head?.any (holdsStatements ·.ast) then applied [.delete c.node]
    else declined "debugger statement is the body of a control-flow statement"

def noThrowLiteral (c : RepairContext SourceFile) : Attempt Outcome := do
  match ← Context.flagged? c .throwStatement with
  | none => declined "flagged node is not a throw statement"
  | some (_, statement) =>
    match (statement.child? .expression).filter (isStringLike ·.ast) with
    | none => declined "only string messages can be wrapped in an Error"
    | some e =>
      match c.tree.handleAt? e.place with
      | none => declined "thrown expression is not addressable"
      | some h =>
        let text ← Context.textOf c h
        let code := Text.ofString "new Error(" ++ text ++ Text.ofString ")"
        let wrapped ← orThrow (c.fragments.expression code)
        applied [.replace h wrapped]

/-- The scope of a variable declared at a place. -/
def scopeOf (f : SourceFile) (place : Place) : Placed :=
  ((f.around place).find? (boundsScope ·.ast)).getD ⟨[], f.ast⟩

/-- The names that a statement declares. -/
def namesOf (f : SourceFile) (statement : Placed) : List String :=
  (((statement.ast.child? .declarations).map (·.childrenOf .declarations)).getD []).flatMap fun d =>
    ((d.child? .name).map (boundNames f)).getD []

def noVar (c : RepairContext SourceFile) : Attempt Outcome := do
  match ← Context.flagged? c .variableStatement with
  | none => declined "flagged node is not a variable statement"
  | some (f, statement) =>
    match (statement.ast.child? .declarations).filter (·.info.token = .varKeyword) with
    | none => declined "declaration no longer uses var"
    | some list =>
      let inScope := namesInScope f (scopeOf f statement.place)
      match (namesOf f statement).find? fun n => 1 < inScope.count n with
      | some name => declined ("'" ++ name ++ "' is declared more than once in the same scope")
      | none =>
        let text ← Context.textOf c c.node
        let offset := list.start - statement.ast.start
        let word := Text.ofString "var"
        if text.slice offset (offset + word.length) = word then
          let code := text.take offset ++ Text.ofString "let" ++ text.drop (offset + word.length)
          let replacement ← orThrow (c.fragments.statement code)
          applied [.replace c.node replacement]
        else declined "var keyword not found at the declaration list"

def radix (c : RepairContext SourceFile) : Attempt Outcome := do
  match ← Context.flagged? c .callExpression with
  | none => declined "flagged node is not a call expression"
  | some (_, call) =>
    match call.childrenOf .arguments with
    | [argument] =>
      if argument.ast.kind = .spreadElement then declined "argument is a spread element"
      else match c.tree.handleAt? argument.place with
        | none => declined "argument is not addressable"
        | some h =>
          let ten ← orThrow (c.fragments.expression (Text.ofString "10"))
          applied [.insertAfter h ten (some (Text.ofString ", "))]
    | arguments => declined ("expected one argument, found " ++ toString arguments.length)

def useIsNaN (c : RepairContext SourceFile) : Attempt Outcome := do
  match ← Context.flagged? c .binaryExpression with
  | none => declined "flagged node is not a binary expression"
  | some (f, binary) =>
    match binary.child? .operator, binary.child? .left, binary.child? .right with
    | some operator, some left, some right =>
      if !isEquality operator.ast.kind then declined "expression is not a comparison"
      else if isNaN f left.ast = isNaN f right.ast then
        declined (if isNaN f left.ast then "both operands are NaN" else "no operand is NaN")
      else
        let operand := if isNaN f left.ast then right else left
        match c.tree.handleAt? operand.place with
        | none => declined "operand is not addressable"
        | some h =>
          let text ← Context.textOf c h
          let negation := if isNegatedEquality operator.ast.kind then "!" else ""
          let code := Text.ofString (negation ++ "Number.isNaN(") ++ text ++ Text.ofString ")"
          let call ← orThrow (c.fragments.expression code)
          applied [.replace c.node call]
    | _, _, _ => declined "expression is not a comparison"

end LintRepair.Rules
