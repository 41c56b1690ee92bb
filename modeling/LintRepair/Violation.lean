import LintRepair.Tree.Basic

/-!
# Violations
-/
namespace LintRepair

inductive Severity where
  | warning
  | error
deriving DecidableEq, Repr, Inhabited

def Severity.label : Severity → String
  | warning => "WARNING"
  | error => "ERROR"

/-- One report of a broken rule, about a node of one tree. -/
structure Violation where
  ruleId : String
  file : String
  node : Handle
  nodeKind : String
  message : String
  severity : Severity
  location : Location
deriving DecidableEq, Repr, Inhabited

end LintRepair
