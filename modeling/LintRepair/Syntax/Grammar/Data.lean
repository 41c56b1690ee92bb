import LintRepair.Syntax.Grammar.Declarations

/-!
# Files of data

A file of data holds one value. What does not begin like another value is read as an object.
-/
namespace LintRepair.Syntax.Grammar.Reader

variable (goals : Goals)

/-- A value in a file of data; a literal before a colon is the name of a member. -/
def dataValue : Reader Branch := do
  match ← kind with
  | .openBracketToken | .trueKeyword | .falseKeyword | .nullKeyword => goals .primary
  | .numericLiteral | .stringLiteral =>
    if ← thenAtAny [.colonToken] then objectLiteral goals else goals .primary
  | .minusToken => do
    let isNumber ← peek do
      next
      let isNumber ← isAt .numericLiteral
      next
      return isNumber && !(← isAt .colonToken)
    if isNumber then goals .unary else objectLiteral goals
  | _ => objectLiteral goals

/-- The values up to the end of the file; a second one is too many. -/
def dataValues : Nat → Array Branch → Reader (Array Branch)
  | 0, acc => return acc
  | fuel + 1, acc => do
    if ← isAt .endOfFileToken then return acc
    let a ← dataValue goals
    if acc.isEmpty && !(← isAt .endOfFileToken) then complain .unexpectedToken
    dataValues fuel (acc.push a)

/-- The statement that is a whole file of data, unless the file is empty. -/
def dataStatements : Reader Items := do
  let start ← here
  match (← dataValues goals (← budget) #[]).toList with
  | [] => listed start #[]
  | first :: rest =>
    let value ← if rest.isEmpty then pure first
      else finish .arrayLiteralExpression start (.many .elements { nodes := first :: rest, start, stop := ← here })
    let statement ← finish .expressionStatement start (.one .expression value)
    listed start #[statement]

end LintRepair.Syntax.Grammar.Reader
