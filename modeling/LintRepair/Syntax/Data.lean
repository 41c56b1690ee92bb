import LintRepair.Syntax.Ast
import LintRepair.Syntax.Complaint
import LintRepair.Syntax.Trivia

/-!
# Values of data files

A file of data may be read in full and still hold expressions that are no data. Names and texts stand in
double quotes, and every member of an object has a name and a value.
-/
namespace LintRepair.Syntax.Data

/-- A report on a node stands at its name, if it has one. -/
def report (a : Ast) (cause : Cause) : List Complaint :=
  let at_ := match a.kind with
    | .methodDeclaration | .getAccessor | .setAccessor | .functionExpression | .classExpression =>
      (a.child? .name).getD a
    | _ => a
  [{ start := at_.start, cause, empty := at_.isMissing }]

/-- Complains about a text without double quotes. -/
def quotes (s : Source) (a : Ast) : List Complaint :=
  if a.kind = .stringLiteral && s.has a.start '"' then [] else report a .doubleQuotesExpected

mutual
/-- What is no data in a value. -/
def inside (s : Source) : Ast → List Complaint
  | .node info children =>
    match info.kind with
    | .trueKeyword | .falseKeyword | .nullKeyword | .numericLiteral => []
    | .stringLiteral => quotes s (.node info children)
    | .objectLiteralExpression => insideMembers s children
    | .arrayLiteralExpression => insideAll s children
    | .prefixUnaryExpression =>
      if info.token = .minusToken && children.any (·.kind = .numericLiteral) then []
      else report (.node info children) .dataExpected
    | _ => report (.node info children) .dataExpected

def insideAll (s : Source) : List Ast → List Complaint
  | [] => []
  | a :: rest => inside s a ++ insideAll s rest

/-- What is no data in the members of an object. -/
def insideMembers (s : Source) : List Ast → List Complaint
  | [] => []
  | .node info children :: rest =>
    let own := if info.kind = .propertyAssignment then insideParts s children
      else report (.node info children) .propertyExpected
    own ++ insideMembers s rest

/-- What is no data in the parts of a member. -/
def insideParts (s : Source) : List Ast → List Complaint
  | [] => []
  | a :: rest =>
    let own := match a.info.label with
      | .question => report a (.typedModifier "?")
      | .name => quotes s a
      | .initializer => inside s a
      | _ => []
    own ++ insideParts s rest
end

/-- What is no data in a file. -/
def ofFile (s : Source) (a : Ast) : List Complaint :=
  (a.childrenOf .statements).flatMap fun statement => (statement.childrenOf .expression).flatMap (inside s)

end LintRepair.Syntax.Data
