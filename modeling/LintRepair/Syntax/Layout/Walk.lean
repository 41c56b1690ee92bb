import LintRepair.Syntax.Layout.Edits

/-!
# The walk through a syntax tree

Every token is passed in the frame of the node that it belongs to, and starts its line as far in as that frame
says. A child sets up a frame of its own; the brackets of a list set up one for all in the list.
-/
namespace LintRepair.Syntax.Layout

namespace Frame

/-- A token never is further in than its node. -/
def isOuter (k : Kind) (container : Kind) : Bool :=
  match k with
  | .openBraceToken | .closeBraceToken | .closeParenToken | .elseKeyword | .whileKeyword | .atToken => true
  | .slashToken | .greaterThanToken =>
    container = .jsxOpeningElement || container = .jsxClosingElement || container = .jsxSelfClosingElement
  | .openBracketToken | .closeBracketToken => container ≠ .mappedType
  | _ => false

/-- How far a token that starts a line is indented. -/
def tokenIndentation (f : Frame) (l : Lines) (k : Kind) (line : Nat) (container : Ast) : Int :=
  let a := f.branch.node
  if isOuter k container.kind || f.line = line || (isDecorated a && firstUndecorated a = some k) then
    f.indentation
  else f.indentation + f.stepFor l container

/-- How far comments before a token are indented that is itself as far in as given. -/
def remarkIndentation (f : Frame) (l : Lines) (k : Kind) (own : Int) (container : Ast) : Int :=
  if k = .closeBraceToken || k = .closeBracketToken || k = .closeParenToken then
    f.indentation + f.stepFor l container
  else own

end Frame

namespace Walker

/-- Reads the next token for a node. -/
def read (b : Branch) : Walker Reading :=
  modifyGet fun w =>
    let (x, cursor) := w.cursor.read b
    (x, { w with cursor })

def onToken : Walker Bool := return (← get).cursor.onToken

/-- Passes the token that has been read, with the trivia around it. What it belongs to is `b`; `container` is
the token as a child, or else the node. -/
def consume (x : Reading) (f : Frame) (b : Branch) (container : Ast) (closesList : Bool := false) :
    Walker Frame := do
  let afterLine := (← get).cursor.afterLine
  let l ← lines
  let f ← passRemarks b x.leading f
  let stopBefore := (← get).previous.map fun p => l.lineOf p.stretch.stop
  let line := l.lineOf x.token.start
  let (change, f) ← pass x.token b f
  let f ← passRemarks b x.trailing f
  if change = .added || (change = .same && afterLine && stopBefore ≠ some line) then
    let k : Kind := match x.token.kind with
      | .token k => k
      | _ => .unknown
    let n := if closesList then f.indentation else f.tokenIndentation l k line container
    let m := f.remarkIndentation l k n container
    if ← indentTrivia m (fun c => indent c.start m false) x.leading true then
      indent x.token.start n (change = .added)
      modify fun w => { w with indented := some (line, n) }
  modify fun w => { w with cursor := w.cursor.advance, within := b }
  return f

/-- Passes the tokens of a node that end before one of its children starts. -/
def approach (b : Branch) (child : Ast) : Nat → Frame → Walker Frame
  | 0, f => return f
  | fuel + 1, f => do
    if !(← onToken) then return f
    let x ← read b
    if x.token.stop ≤ child.start then approach b child fuel (← consume x f b b.node)
    else
      if x.token.start > child.start then
        modify fun w => { w with cursor := w.cursor.skipTo child.fullStart }
      return f

/-- Passes the tokens of a node that are left behind its last child. -/
def finish (b : Branch) : Nat → Frame → Walker Unit
  | 0, _ => return
  | fuel + 1, f => do
    if !(← onToken) then return
    let x ← read b
    if x.token.stop ≤ b.node.stop then finish b fuel (← consume x f b b.node)

/-- The indentation of a child and the step of its further lines; `known` is that of a list's items. -/
def place (f : Frame) (b : Branch) (child : Ast) (line parentLine : Nat) (known : Option Int) :
    Walker (Int × Nat) := do
  let l ← lines
  let own := if indents l child none false then l.width else 0
  if line = parentLine then
    let n := match (← get).indented with
      | some (last, n) => if last = line then n else f.indentation
      | none => f.indentation
    return (n, min l.width (f.stepFor l child + own))
  match known with
  | some n => return (n, own)
  | none =>
    if followsElse l b.node child || isLevelBranch l b.node child || followsArgument l b.node child then
      return (f.indentation, own)
    return (f.indentation + f.stepFor l child, own)

/-- Visits a child in a frame. `lines_` are the line on which the node starts and the one without decorators;
the answer is the frame and the indentation of the list's items. -/
def child (visit : Branch → Nat → Nat → Int → Nat → Walker Unit) (b : Branch) (c : Ast) (parentLine : Nat)
    (known : Option Int) (firstItem : Bool) (f : Frame) : Walker (Frame × Option Int) := do
  if c.isMissing || c.fullStart = c.stop then return (f, known)
  let l ← lines
  let f ← approach b c (l.source.size + 1) f
  if !(← onToken) then return (f, known)
  if c.kind.isToken then
    let x ← read (b.child c)
    if c.kind ≠ .jsxText then return (← consume x f b c, known)
  let line := l.lineOfNode c
  let (n, step) ← place f b c line (if c.kind = .decorator then line else parentLine) known
  visit (b.child c) line (l.undecoratedLine c) n step
  modify fun w => { w with within := b }
  return (f, if firstItem && b.kind = .arrayLiteralExpression && known.isNone then some n else known)

/-- Passes the tokens of a node up to a list and sets up a frame for the list behind its opening bracket. -/
def enter (b : Branch) (openBracket : Kind) (list : ListExtent) (line : Nat) :
    Nat → Frame → Option Frame → Nat → Walker (Frame × Option Frame × Nat)
  | 0, outer, inner, itemLine => return (outer, inner, itemLine)
  | fuel + 1, outer, inner, itemLine => do
    if !(← onToken) then return (outer, inner, itemLine)
    let x ← read b
    if x.token.stop > list.start then return (outer, inner, itemLine)
    let l ← lines
    let outer ← consume x outer b b.node
    if x.token.kind ≠ .token openBracket then enter b openBracket list line fuel outer inner itemLine
    else
      let tokenLine := l.lineOf x.token.start
      let n : Int := match (← get).indented with
        | some (_, n) => n
        | none => l.firstColumn (l.startOf tokenLine) x.token.start
      enter b openBracket list line fuel outer (some ⟨b, line, n, l.width⟩) tokenLine

/-- Passes the closing bracket of a list, and a comma before it. -/
def leave (b : Branch) (closeBracket : Kind) (f : Frame) : Walker Frame := do
  if !(← onToken) then return f
  let x ← read b
  let (x, f) ← if x.token.kind = .token .commaToken then do
      let f ← consume x f b b.node
      if !(← onToken) then return f
      pure (← read b, f)
    else pure (x, f)
  if x.token.kind = .token closeBracket && b.node.fullStart ≤ x.token.start && x.token.stop ≤ b.node.stop then
    consume x f b b.node true
  else return f

/-- Visits the items of a list. -/
def items (visit : Branch → Nat → Nat → Int → Nat → Walker Unit) (b : Branch) (parentLine : Nat) :
    List Ast → Option Int → Bool → Frame → Walker Frame
  | [], _, _, f => return f
  | c :: rest, known, first, f => do
    let (f, known) ← child visit b c parentLine known first f
    items visit b parentLine rest known false f

/-- Visits a list of a node that starts on a line. -/
def list (visit : Branch → Nat → Nat → Int → Nat → Walker Unit) (b : Branch) (extent : ListExtent)
    (line : Nat) (f : Frame) : Walker Frame := do
  if extent.start = extent.stop then return f
  let nodes := (b.node.childrenOf extent.label)
  match bracketsOf b.kind extent.label with
  | none => items visit b line nodes none true f
  | some (openBracket, closeBracket) => do
    let l ← lines
    let (outer, inner, itemLine) ← enter b openBracket extent line (l.source.size + 1) f none line
    match inner with
    | none => do
      let f ← items visit b itemLine nodes none true outer
      leave b closeBracket f
    | some f => do
      let f ← items visit b itemLine nodes none true f
      let _ ← leave b closeBracket f
      return outer

/-- A child of a node, or a list of children. -/
inductive Part where
  | one (c : Ast)
  | many (extent : ListExtent)
deriving Inhabited

/-- The children and lists of a node in their order. -/
def parts (a : Ast) : List Part :=
  let listsAt (index : Nat) : List Part := (a.info.lists.filter (·.index = index)).map .many
  let listed (c : Ast) : Bool := a.info.lists.any (·.label = c.info.label)
  (a.children.zipIdx.flatMap fun (c, index) =>
    listsAt index ++ if listed c then [] else [.one c]) ++ listsAt a.children.length

/-- Visits a node with at most `fuel` levels in a frame, which starts on a line; `undecorated` is the line
without its decorators. -/
def visit : Nat → Branch → Nat → Nat → Int → Nat → Walker Unit
  | 0, _, _, _, _, _ => return
  | fuel + 1, b, line, undecorated, n, step => do
    if b.node.stop ≤ b.node.start then return
    let f ← (parts b.node).foldlM (fun f part => match part with
      | .one c => return (← child (visit fuel) b c undecorated none false f).1
      | .many extent => list (visit fuel) b extent line f) (⟨b, line, n, step⟩ : Frame)
    finish b ((← lines).source.size + 1) f

/-! ## The end of a text -/

/-- Frees what is left of the text of white space at the ends of its lines, from an offset on. -/
def trimRest (around : Option Stretch) : List Stretch → Nat → Walker Unit
  | [], i => do
    let l ← lines
    if i < l.source.size then trim (l.lineOf i) (l.lineOf l.source.size + 1) around
  | x :: rest, i => do
    if x.kind.isRemark then
      let l ← lines
      if i < x.start then trim (l.lineOf i) (l.lineOf (x.start - 1) + 1) around
      trimRest around rest (x.stop + 1)
    else trimRest around rest i

/-- Lays out a whole text. -/
def text (a : Ast) : Walker Unit := do
  let b : Branch := ⟨a, []⟩
  modify fun w => { w with cursor := w.cursor.advance }
  let l ← lines
  if ← onToken then visit (l.source.size + 1) b (l.lineOfNode a) (l.undecoratedLine a) 0 0
  let rest := (← get).cursor.leading
  if rest.isEmpty then return
  modify fun w => { w with within := b }
  let alone (x : Stretch) : Walker Unit := do
    let _ ← pass x b ⟨b, 0, 0, 0⟩
    indent x.start 0 false
  let _ ← indentTrivia 0 alone rest true
  let last := (← get).previous.map (·.stretch)
  trimRest last rest ((last.map (·.stop)).getD 0)

end Walker
end LintRepair.Syntax.Layout
