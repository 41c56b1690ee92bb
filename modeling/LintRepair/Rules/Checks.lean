import LintRepair.Rules.Forms

/-!
# The built-in checks

Each check lists the nodes of a file that break its rule.
-/
namespace LintRepair.Rules

open Syntax

/-- A check that flags the nodes of one kind that satisfy a test, under the name of the rule. -/
def flagging (ruleId name description : String) (severity : Severity) (k : Kind)
    (test : SourceFile → Placed → Bool) : RuleCheck SourceFile where
  ruleId := ruleId
  name := name
  description := description
  severity := severity
  check f := .ok (((f.nodesOf k).filter (test f)).map fun p => ⟨.at p.place, name⟩)

def noVarCheck : RuleCheck SourceFile :=
  flagging "no-var" "Unexpected var, use let or const instead"
    "Variable statements must use block-scoped declarations" .warning .variableStatement
    fun _ p => (p.ast.child? .declarations).any (·.info.token = .varKeyword)

def noDebuggerCheck : RuleCheck SourceFile :=
  flagging "no-debugger" "Unexpected 'debugger' statement"
    "Debugger statements must not be committed" .error .debuggerStatement fun _ _ => true

def noThrowLiteralCheck : RuleCheck SourceFile :=
  flagging "no-throw-literal" "Expected an error object to be thrown"
    "Only Error objects may be thrown" .warning .throwStatement
    fun f p => (p.ast.child? .expression).any (isLiteralValue f)

def radixCheck : RuleCheck SourceFile :=
  flagging "radix" "Missing radix parameter"
    "parseInt must be called with an explicit radix" .warning .callExpression
    fun f p => (p.ast.child? .expression).any (isGlobal f · "parseInt")
      && (p.ast.childrenOf .arguments).length = 1

/-- The clauses of a switch. -/
def clausesOf (p : Placed) : List Placed := (p.child? .block).toList.flatMap (·.childrenOf .clauses)

def hasDefault (p : Placed) : Bool := (clausesOf p).any (·.ast.kind = .defaultClause)

def defaultCaseCheck : RuleCheck SourceFile :=
  flagging "default-case" "Expected a default case"
    "Switch statements must end with a default clause" .warning .switchStatement
    fun _ p => !hasDefault p

def eqeqeqCheck : RuleCheck SourceFile where
  ruleId := "eqeqeq"
  name := "Expected strict equality operator"
  description := "Comparisons must use === and !=="
  severity := .error
  check f := .ok ((f.nodesOf .binaryExpression).filterMap fun p => do
    let operator ← p.ast.child? .operator
    let text := (f.textOf operator).toString
    if isLooseEquality operator.kind then
      some ⟨.at p.place, "Expected '" ++ text ++ "=' and instead saw '" ++ text ++ "'"⟩
    else none)

def useIsNaNCheck : RuleCheck SourceFile :=
  flagging "use-isnan" "Use 'Number.isNaN' instead of comparing with NaN"
    "NaN must be tested with Number.isNaN" .error .binaryExpression
    fun f p => (p.ast.child? .operator).any (isEquality ·.kind)
      && ((p.ast.child? .left).any (isNaN f) || (p.ast.child? .right).any (isNaN f))

def curlyCheck : RuleCheck SourceFile where
  ruleId := "curly"
  name := "Expected \x7b after control-flow statement"
  description := "Bodies of if, else and loop statements must be blocks"
  check f := .ok (f.nodes.flatMap fun p =>
    ((controlledBodies p).filter fun b => b.ast.kind ≠ .block).map fun b =>
      let word := if b.ast.info.label = .otherwise then "else" else (opening f p.ast).toString
      ⟨.at b.place, "Expected \x7b after '" ++ word ++ "' condition"⟩)

end LintRepair.Rules
