import LintRepair.Syntax.Grammar.Expressions

/-!
# Markup

Elements with tags, attributes and children. Tags that do not match are put right as far as one can tell
whose closing tag is missing.
-/
namespace LintRepair.Syntax.Grammar.Reader

variable (goals : Goals)

/-- Reads on as text between tags. -/
def nextText : Reader Unit :=
  accept (fun s => s.token.markupText s.source s.token.stop) fun _ h =>
    Token.sound_markupText h.le_stop

/-- Reads the current token again as text between tags. No file begins with one. -/
def rereadText : Reader Kind := do
  accept (fun s => if s.token.fullStart = 0 then s.token else s.token.markupText s.source s.token.fullStart)
    fun _ h => h.rereadText
  kind

/-- The text of a token between tags as a node; comments are part of it. -/
def finishText (fullStart : Nat) (t : Token) : Reader Branch := do
  let s ← state
  let stop := s.token.fullStart
  let start := if fullStart = stop then fullStart else s.source.skipBlanks fullStart
  return .node { kind := .jsxText, fullStart, start, stop, text := t.value,
                 multiLine := t.kind = .jsxTextAllWhiteSpaces } []

/-- Reads a name with the hyphens in it. -/
def markupWord : Reader Unit :=
  accept (fun s => s.token.asMarkupName s.source) fun _ h => h.asMarkupName

/-- A name, perhaps with a second one behind a colon. -/
def spacedName : Reader Branch := do
  let start ← here
  markupWord
  let first ← plainWord
  if ← skip? .colonToken then
    markupWord
    let second ← plainWord
    finish .jsxNamespacedName start (.one .space first ++ .one .name second)
  else return first

def tagNameRest (start : Nat) : Nat → Branch → Reader Branch
  | 0, e => return e
  | fuel + 1, e => do
    if ← skip? .dotToken then
      let name ← memberName true false false
      let whole ← finish .propertyAccessExpression start (.one .expression e ++ .one .name name)
      tagNameRest start fuel whole
    else return e

/-- The name of a tag. -/
def tagName : Reader Branch := do
  let start ← here
  markupWord
  let isThis ← isAt .thisKeyword
  let first ← plainWord
  if ← skip? .colonToken then
    markupWord
    let second ← plainWord
    return ← finish .jsxNamespacedName start (.one .space first ++ .one .name second)
  let first ← if isThis then finish .thisKeyword start .none else pure first
  tagNameRest start (← budget) first

/-- Two tags have the same name. -/
def sameTag : Ast → Ast → Bool
  | .node i cs, .node j ds =>
    if i.kind ≠ j.kind then false
    else if i.kind = .identifier then i.text = j.text
    else if i.kind = .thisKeyword then true
    else sameTags cs ds
where
  /-- The parts of two names are the same. -/
  sameTags : List Ast → List Ast → Bool
    | a :: as, b :: bs => sameTag a b && sameTags as bs
    | [], [] => true
    | _, _ => false

/-- The name of a tag or of an element's opening or closing tag. -/
def nameOfTag (a : Branch) : Branch := (a.child? .tag).getD a

/-- An expression in braces. -/
def markupExpression (inExpression : Bool) : Reader (Option Branch) := do
  let start ← here
  if !(← expect .openBraceToken) then return none
  let (rest, e) : Option Branch × Option Branch ←
    if ← isAt .closeBraceToken then pure (none, none)
    else do
      let rest ← if inExpression then pure none else tokenNode? .dotDotDotToken
      let e ← goals .expression
      pure (rest, some e)
  if inExpression then
    let _ ← expect .closeBraceToken
  else if ← expectHere .closeBraceToken (.expected "\x7d") then nextText
  return some (← finish .jsxExpression start (.maybe .rest rest ++ .maybe .expression e))

/-- The value of an attribute. -/
def attributeValue? : Reader (Option Branch) := do
  if !(← isAt .equalsToken) then return none
  accept (fun s => s.token.markupValue s.source s.dialect) fun s h => h.markupValue s.dialect
  match ← kind with
  | .stringLiteral => return some (← literal)
  | .openBraceToken => markupExpression goals true
  | .lessThanToken => return some (← goals (.markup true none none false))
  | _ =>
    complain .attributeValueExpected
    return none

/-- The attribute of a tag. -/
def tagAttribute : Reader Branch := do
  let start ← here
  if ← isAt .openBraceToken then
    next
    let _ ← expect .dotDotDotToken
    let e ← goals .expression
    let _ ← expect .closeBraceToken
    finish .jsxSpreadAttribute start (.one .expression e)
  else
    let name ← spacedName
    let value ← attributeValue? goals
    finish .jsxAttribute start (.one .name name ++ .maybe .initializer value)

/-- An opening tag, or a whole element without children. -/
def openingTag (inExpression : Bool) : Reader Branch := do
  let start ← here
  let _ ← expect .lessThanToken
  if ← isAt .greaterThanToken then
    nextText
    return ← finish .jsxOpeningFragment start .none
  let tag ← tagName
  let args ← if (← dialect).untyped then pure none else typeArguments? goals
  let attributesStart ← here
  let items ← list .markupAttributes (tagAttribute goals)
  let attributes ← finish .jsxAttributes attributesStart (.many .attributes items)
  let parts := Parts.one .tag tag ++ .manyMaybe .typeArguments args ++ .one .attributes attributes
  if ← isAt .greaterThanToken then
    nextText
    finish .jsxOpeningElement start parts
  else
    let _ ← expect .slashToken
    if ← expectHere .greaterThanToken (.expected ">") then
      if inExpression then next else nextText
    finish .jsxSelfClosingElement start parts

/-- The closing tag of an element. -/
def closingTag (opening : Branch) (inExpression : Bool) : Reader Branch := do
  let start ← here
  let _ ← expect .lessThanSlashToken
  let tag ← tagName
  if ← expectHere .greaterThanToken (.expected ">") then
    if inExpression || !sameTag (nameOfTag opening) tag then next else nextText
  finish .jsxClosingElement start (.one .tag tag)

def closingFragment (inExpression : Bool) : Reader Branch := do
  let start ← here
  let _ ← expect .lessThanSlashToken
  if ← expectHere .greaterThanToken .mismatchedFragment then
    if inExpression then next else nextText
  finish .jsxClosingFragment start .none

/-- The names of an element's own tags. -/
def tagsOf (a : Branch) : Option (Branch × Branch) :=
  match a.child? .opening, a.child? .closing with
  | some o, some c => if a.kind = .jsxElement then some (nameOfTag o, nameOfTag c) else none
  | _, _ => none

/-- A child that has taken the closing tag of its parent. -/
def tookClosing (parent : Branch) (child : Branch) : Bool :=
  (tagsOf child).any fun (opening, closing) =>
    !sameTag opening closing && sameTag (nameOfTag parent) closing

/-- Children of an element up to its closing tag, at most `fuel`. -/
def markupChildren (parent : Branch) : Nat → Array Branch → Reader (Array Branch)
  | 0, acc => return acc
  | fuel + 1, acc => do
    let start ← here
    let child : Option Branch ← match ← rereadText with
      | .endOfFileToken => do
        if parent.kind = .jsxOpeningFragment then complainAt parent.fullStart .unclosedFragment
        else
          let tag := nameOfTag parent
          complainAt (min tag.start tag.stop) (.unclosedElement (← sourceText tag))
        pure none
      | .lessThanSlashToken | .conflictMarkerTrivia => pure none
      | .jsxText | .jsxTextAllWhiteSpaces => do
        let t := (← state).token
        nextText
        let a ← finishText start t
        pure (some a)
      | .openBraceToken => markupExpression goals false
      | _ => do pure (some (← goals (.markup false none (some parent) false)))
    match child with
    | none => return acc
    | some a =>
      if parent.kind = .jsxOpeningElement && tookClosing parent a then return acc.push a
      markupChildren parent fuel (acc.push a)

def childrenOf (parent : Branch) : Reader Items := do
  let start ← here
  let nodes ← inList .markupChildren (markupChildren goals parent (2 * (← budget)) #[])
  listed start nodes

/-- Gives the closing tag that the last child took back to its parent. -/
def returnClosing (children : Items) : Option (Items × Branch) :=
  match children.nodes.getLast? with
  | some last =>
    match last.child? .opening, last.child? .closing, last.list? .children with
    | some opening, some closing, some inner =>
      let stop := inner.stop
      let empty := Branch.node { kind := .identifier, fullStart := stop, start := stop, stop } []
      let ending := Branch.node { kind := .jsxClosingElement, label := .closing, fullStart := stop, start := stop, stop }
        [empty.as .tag]
      let mended := Branch.node { last.info with stop }
        (opening :: last.childrenOf .children ++ [ending])
      some ({ children with nodes := children.nodes.dropLast ++ [mended], stop }, closing)
    | _, _, _ => none
  | none => none

/-- An element behind its opening tag. -/
def elementRest (start : Nat) (opening : Branch) (inExpression : Bool) (parent : Option Branch) :
    Reader Branch := do
  let children ← childrenOf goals opening
  let own := nameOfTag opening
  let returned := if children.nodes.getLast?.any (tookClosing opening) then returnClosing children
    else none
  let (children, closing) ← match returned with
    | some r => pure r
    | none => do
      let closing ← closingTag opening inExpression
      let other := nameOfTag closing
      if !sameTag own other then
        let text ← sourceText own
        let fromParent := parent.any fun p => p.kind = .jsxOpeningElement && sameTag other (nameOfTag p)
        if fromParent then complainAt own.fullStart (.unclosedElement text)
        else complainAt other.fullStart (.mismatchedElement text)
      pure (children, closing)
  finish .jsxElement start
    (.one .opening opening ++ .many .children children ++ .one .closing closing)

/-- An element or a fragment; a second one beside it needs a common parent. -/
def markup (inExpression : Bool) (firstRoot : Option Nat) (parent : Option Branch) (isUnary : Bool) :
    Reader Branch := do
  let start ← here
  let opening ← openingTag goals inExpression
  let whole ← match opening.kind with
    | .jsxOpeningElement => elementRest goals start opening inExpression parent
    | .jsxOpeningFragment => do
      let children ← childrenOf goals opening
      let closing ← closingFragment inExpression
      finish .jsxFragment start
        (.one .opening opening ++ .many .children children ++ .one .closing closing)
    | _ => pure opening
  if isUnary || !inExpression || !(← isAt .lessThanToken) then return whole
  let first := firstRoot.getD whole.fullStart
  let second ← goals (.markup true (some first) none false)
  let comma := Branch.node
    { kind := .commaToken, fullStart := second.fullStart, start := second.fullStart, stop := second.fullStart } []
  complainAt ((← state).source.skipTrivia first) .severalRoots
  finish .binaryExpression start
    (.one .left whole ++ .one .operator comma ++ .one .right second)
    fun i => { i with token := .commaToken }

end LintRepair.Syntax.Grammar.Reader
