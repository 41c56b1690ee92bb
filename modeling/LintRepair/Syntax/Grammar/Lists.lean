import LintRepair.Syntax.Grammar.Starts

/-!
# Lists

Lists of statements, members, parameters and so on are read element by element. At a token that fits no
element the list either ends, if some list around it can use the token, or skips the token.
-/
namespace LintRepair.Syntax.Grammar

namespace ListContext

/-- Whether an element may begin at the current token. When `recovering`, tokens that would mislead are
not taken for an element. -/
def startsElement (recovering : Bool) : ListContext → Reader Bool
  | sourceElements | blockStatements | clauseStatements => do
    if recovering && (← Reader.isAt .semicolonToken) then return false
    Reader.startsStatement
  | switchClauses => Reader.isAtAny [.caseKeyword, .defaultKeyword]
  | typeMembers => Reader.startsTypeMember
  | classMembers => do
    if ← Reader.startsClassMember then return true
    return !recovering && (← Reader.isAt .semicolonToken)
  | enumMembers => do
    if ← Reader.isAt .openBracketToken then return true
    Reader.atPropertyName
  | properties => do
    if ← Reader.isAtAny [.openBracketToken, .asteriskToken, .dotDotDotToken, .dotToken] then return true
    Reader.atPropertyName
  | objectPattern => do
    if ← Reader.isAtAny [.openBracketToken, .dotDotDotToken] then return true
    Reader.atPropertyName
  | importAttributes => do return (← Reader.atWord) || (← Reader.isAt .stringLiteral)
  | heritageTypes => do
    if ← Reader.isAt .openBraceToken then return ← Reader.atHeritageObject
    let starts ← if recovering then Reader.atName else Reader.startsAccess
    return starts && !(← Reader.atNextHeritage)
  | declared => Reader.atPattern
  | arrayPattern => do
    if ← Reader.isAtAny [.commaToken, .dotDotDotToken] then return true
    Reader.atPattern
  | typeParameters => do
    if ← Reader.isAtAny [.inKeyword, .constKeyword] then return true
    Reader.atName
  | arrayElements => do
    if ← Reader.isAtAny [.commaToken, .dotToken, .dotDotDotToken] then return true
    Reader.startsExpression
  | arguments => do
    if ← Reader.isAt .dotDotDotToken then return true
    Reader.startsExpression
  | parameters => do
    let size := (← Reader.state).source.size
    Reader.startsParameter (Reader.startsTypeWithin size true)
  | typeArguments | tupleElements => do
    if ← Reader.isAt .commaToken then return true
    Reader.startsType
  | heritageClauses => Reader.atHeritage
  | specifiers => do
    if (← Reader.isAt .fromKeyword) && (← Reader.thenAtAny [.stringLiteral]) then return false
    if ← Reader.isAt .stringLiteral then return true
    Reader.atWord
  | markupAttributes => do return (← Reader.atWord) || (← Reader.isAt .openBraceToken)
  | markupChildren => return true

/-- Whether the current token ends the list. -/
def ends (l : ListContext) : Reader Bool := do
  if ← Reader.isAt .endOfFileToken then return true
  match l with
  | blockStatements | switchClauses | typeMembers | classMembers | enumMembers | properties
  | objectPattern | specifiers | importAttributes => Reader.isAt .closeBraceToken
  | clauseStatements => Reader.isAtAny [.closeBraceToken, .caseKeyword, .defaultKeyword]
  | heritageTypes => Reader.isAtAny [.openBraceToken, .extendsKeyword, .implementsKeyword]
  | declared =>
    if ← Reader.mayEnd then return true
    Reader.isAtAny [.inKeyword, .ofKeyword, .equalsGreaterThanToken]
  | typeParameters => Reader.isAtAny [.greaterThanToken, .openParenToken, .openBraceToken,
      .extendsKeyword, .implementsKeyword]
  | arguments => Reader.isAtAny [.closeParenToken, .semicolonToken]
  | arrayElements | tupleElements | arrayPattern => Reader.isAt .closeBracketToken
  | parameters => Reader.isAtAny [.closeParenToken, .closeBracketToken]
  | typeArguments => return !(← Reader.isAt .commaToken)
  | heritageClauses => Reader.isAtAny [.openBraceToken, .closeBraceToken]
  | markupAttributes => Reader.isAtAny [.greaterThanToken, .slashToken]
  | markupChildren =>
    if ← Reader.isAt .lessThanToken then Reader.thenAtAny [.slashToken] else return false
  | sourceElements => return false

/-- What is missing where no element of the list begins. -/
def complaint (l : ListContext) : Reader Cause := do
  let k ← Reader.kind
  return match l with
  | sourceElements =>
    if k = .defaultKeyword then .expected "export" else .declarationOrStatementExpected
  | blockStatements => .declarationOrStatementExpected
  | switchClauses => .caseOrDefaultExpected
  | clauseStatements => .statementExpected
  | typeMembers => .memberExpected
  | classMembers => .classMemberExpected
  | enumMembers => .enumMemberExpected
  | heritageTypes => .expressionExpected
  | declared => if k.isListedWord then .notVariableName k.text else .variableExpected
  | objectPattern => .propertyPatternExpected
  | arrayPattern => .elementPatternExpected
  | arguments => .argumentExpected
  | properties => .propertyExpected
  | arrayElements => .expressionOrCommaExpected
  | parameters => if k.isListedWord then .notParameterName k.text else .parameterExpected
  | typeParameters => .typeParameterExpected
  | typeArguments => .typeArgumentExpected
  | tupleElements => .typeExpected
  | heritageClauses => .openBraceExpected
  | specifiers => if k = .fromKeyword then .expected "\x7d" else .identifierExpected
  | markupAttributes | markupChildren => .identifierExpected
  | importAttributes => .identifierOrStringExpected

/-- The lists in the order in which they are asked whether they can use a token. -/
def all : List ListContext :=
  [sourceElements, blockStatements, switchClauses, clauseStatements, typeMembers, classMembers,
    enumMembers, heritageTypes, declared, objectPattern, arrayPattern, arguments, properties,
    markupAttributes, markupChildren, arrayElements, parameters, typeParameters, typeArguments,
    tupleElements, heritageClauses, specifiers, importAttributes]

end ListContext

namespace Reader

/-- Some list that is being read can use the current token. -/
def someListResumes : Reader Bool := do
  let lists := (← state).lists
  (ListContext.all.filter lists.contains).anyM fun l => do
    if ← l.startsElement true then return true
    l.ends

/-- Complains about the current token; then the list ends or skips it. -/
def abandons (l : ListContext) : Reader Bool := do
  complain (← l.complaint)
  if ← someListResumes then return true
  next
  return false

def setLists (ls : List ListContext) : Reader Unit :=
  change (fun s => { s with lists := ls }) fun _ => ⟨rfl, rfl, List.prefix_rfl, id⟩

/-- Reads as part of a list. -/
def inList {α : Type} (l : ListContext) (r : Reader α) : Reader α := do
  let saved := (← state).lists
  setLists (l :: saved)
  let a ← r
  setLists saved
  return a

/-- A number that no list of the file exceeds in length. -/
def budget : Reader Nat := return (← state).source.size + 2

def listed (start : Nat) (nodes : Array Branch) (trailingComma : Bool := false) : Reader Items :=
  return { nodes := nodes.toList, start, stop := ← here, trailingComma }

/-- Elements one after the other. -/
def elements (l : ListContext) (element : Reader Branch) : Nat → Array Branch → Reader (Array Branch)
  | 0, acc => return acc
  | fuel + 1, acc => do
    if ← l.ends then return acc
    if ← l.startsElement false then
      let a ← element
      elements l element fuel (acc.push a)
    else if ← abandons l then return acc
    else elements l element fuel acc

/-- Reads elements up to the end of the list. -/
def list (l : ListContext) (element : Reader Branch) : Reader Items := inList l do
  let start ← here
  listed start (← elements l element (2 * (← budget)) #[])

/-- What is missing between two elements. -/
def commaCause : ListContext → Cause
  | .enumMembers => .enumMemberEnd
  | _ => .expected ","

/-- Elements with commas between them; an element that cannot be read undoes the list. The second answer
tells whether a comma came last. -/
def separated (l : ListContext) (element : Reader (Option Branch)) (orSemicolon : Bool) :
    Nat → Array Branch → Bool → Reader (Option (Array Branch × Bool))
  | 0, acc, comma => return some (acc, comma)
  | fuel + 1, acc, comma => do
    if ← l.startsElement false then
      let start ← here
      match ← element with
      | none => return none
      | some a =>
        let acc := acc.push a
        if ← skip? .commaToken then separated l element orSemicolon fuel acc true
        else if ← l.ends then return some (acc, false)
        else
          let _ ← expectOr .commaToken (commaCause l)
          if orSemicolon && (← isAt .semicolonToken) && !(← afterLineEnd) then next
          if start = (← here) then next
          separated l element orSemicolon fuel acc false
    else if ← l.ends then return some (acc, comma)
    else if ← abandons l then return some (acc, comma)
    else separated l element orSemicolon fuel acc comma

/-- Reads elements with commas between them, unless one cannot be read. -/
def commaList? (l : ListContext) (element : Reader (Option Branch)) (orSemicolon : Bool := false) :
    Reader (Option Items) := inList l do
  let start ← here
  match ← separated l element orSemicolon (2 * (← budget)) #[] false with
  | none => return none
  | some (nodes, comma) => return some (← listed start nodes comma)

/-- Reads elements with commas between them. -/
def commaList (l : ListContext) (element : Reader Branch) (orSemicolon : Bool := false) : Reader Items := do
  let items ← commaList? l (do return some (← element)) orSemicolon
  return items.getD {}

/-- Reads elements with commas between them inside brackets. -/
def bracketed (l : ListContext) (element : Reader Branch) (open_ close : Kind) : Reader Items := do
  if ← expect open_ then
    let items ← commaList l element
    let _ ← expect close
    return items
  else noItems

end Reader
end LintRepair.Syntax.Grammar
