import LintRepair.Syntax.Ast
import LintRepair.Syntax.Token.Scan

/-!
# Reading a text for its layout

The text is read again from its start, stretch by stretch, with the white space and comments between the
tokens. A token comes with what stands before it on its own lines and what stands behind it on its line; the
node for which it is read decides how far it goes.
-/
namespace LintRepair.Syntax

/-- Tokens come first among the kinds. -/
def Kind.isToken (k : Kind) : Bool := k.ctorIdx < Kind.qualifiedName.ctorIdx

namespace Layout

/-- A node with the nodes around it, the nearest first. -/
structure Branch where
  node : Ast
  above : List Ast := []
deriving Inhabited

namespace Branch

def kind (b : Branch) : Kind := b.node.kind

/-- A child of the node. -/
def child (b : Branch) (a : Ast) : Branch := ⟨a, b.node :: b.above⟩

/-- The kind of the node around. -/
def parentKind (b : Branch) : Kind := (b.above.head?.map (·.kind)).getD .unknown

end Branch

/-- What a stretch of text is. -/
inductive StretchKind where
  | token (k : Kind)
  | lineRemark
  | blockRemark
  | lineEnd
  | gap
  /-- Another piece of trivia: the line that names an interpreter, or the mark of a merge. -/
  | mark
deriving DecidableEq, Repr, Inhabited

namespace StretchKind

def isTrivia : StretchKind → Bool
  | token _ => false
  | _ => true

def isRemark : StretchKind → Bool
  | lineRemark | blockRemark => true
  | _ => false

end StretchKind

structure Stretch where
  kind : StretchKind := .token .unknown
  start : Nat := 0
  stop : Nat := 0
deriving DecidableEq, Repr, Inhabited

/-- The stretch at an offset. -/
def stretchAt (s : Source) (d : Dialect) (i : Nat) : Stretch :=
  if s.size ≤ i then ⟨.token .endOfFileToken, i, i⟩
  else if isLineEnd (s.unitAt i) then
    ⟨.lineEnd, i, if s.has i '\r' && s.has (i + 1) '\n' then i + 2 else i + 1⟩
  else if isGap (s.unitAt i) then ⟨.gap, i, s.skipWhile isGap i⟩
  else if s.has i '/' && s.has (i + 1) '/' then ⟨.lineRemark, i, s.lineEnd i⟩
  else if s.has i '/' && s.has (i + 1) '*' then ⟨.blockRemark, i, (s.blockEnd (i + 2)).1⟩
  else if s.mayBeConflict i && s.isConflict i then ⟨.mark, i, s.conflictEnd i⟩
  else if s.isShebang i then ⟨.mark, i, s.lineEnd i⟩
  else
    let (k, l) := s.lexeme d {} i
    ⟨.token k, i, l.stop⟩

/-- The end of a text of markup from an offset on: it stops at a tag or an expression, and at the end of a line
on which something stands. -/
def markupLineEnd (s : Source) : Nat → Bool → Nat → Nat
  | 0, _, i => i
  | fuel + 1, filled, i =>
    let c := s.unitAt i
    if s.size ≤ i || c = 0x7B || c = 0x3C || (filled && isLineEnd c) then i
    else markupLineEnd s fuel (filled || !(isGap c || isLineEnd c)) (i + 1)

/-- How a token is to be read. -/
inductive Manner where
  | plain | greater | pattern | template | markupName | markupText | markupValue
deriving DecidableEq, Repr, Inhabited

/-- The token at an offset, read in a manner, with what becomes of the manner if it does not fit there. -/
def tokenAs (s : Source) (d : Dialect) (plain : Stretch) (manner : Manner) : Stretch × Manner :=
  let i := plain.start
  let whole : Token := s.token d {} i
  let as_ (t : Token) : Stretch × Manner := (⟨.token t.kind, i, t.stop⟩, manner)
  let same : Stretch × Manner := (plain, .plain)
  match manner with
  | .plain => same
  | .greater => if whole.kind = .greaterThanToken then as_ (whole.joinGreater s) else same
  | .pattern =>
    if whole.kind = .slashToken || whole.kind = .slashEqualsToken then as_ (whole.asPattern s) else same
  | .template => if whole.kind = .closeBraceToken then as_ (whole.asTemplate s false) else same
  | .markupName => as_ (whole.asMarkupName s)
  | .markupText =>
    if s.has i '<' && s.has (i + 1) '/' then (⟨.token .lessThanSlashToken, i, i + 2⟩, manner)
    else if s.has i '<' then (⟨.token .lessThanToken, i, i + 1⟩, manner)
    else if s.has i '\x7b' then (⟨.token .openBraceToken, i, i + 1⟩, manner)
    else (⟨.token .jsxText, i, markupLineEnd s (s.size - i) false i⟩, manner)
  | .markupValue =>
    if s.has i '"' || s.has i '\'' then (⟨.token .stringLiteral, i, (s.quoted true i).stop⟩, manner)
    else (plain, manner)

/-- A token with the trivia around it. -/
structure Reading where
  leading : List Stretch := []
  token : Stretch := {}
  trailing : List Stretch := []
deriving Repr, Inhabited

/-- Where the reading of a text is. -/
structure Cursor where
  source : Source
  dialect : Dialect := {}
  /-- The stretch behind what has been read. -/
  ahead : Stretch := {}
  /-- Where the token starts that is read next. -/
  saved : Nat := 0
  leading : List Stretch := []
  trailing : List Stretch := []
  /-- The token that has been read and not yet been passed. -/
  last : Option Reading := none
  manner : Manner := .plain
  /-- The trivia behind the token before ended with its line. -/
  afterLine : Bool := true
deriving Inhabited

namespace Cursor

/-- Trivia from a stretch on, and the first stretch that is none. -/
def gather (s : Source) (d : Dialect) : Nat → Stretch → List Stretch × Stretch
  | 0, ahead => ([], ahead)
  | fuel + 1, ahead =>
    if ahead.kind.isTrivia then
      let (more, rest) := gather s d fuel (stretchAt s d ahead.stop)
      (ahead :: more, rest)
    else ([], ahead)

/-- Trivia up to the end of the line, and the first stretch behind it. -/
def gatherLine (s : Source) (d : Dialect) : Nat → Nat → List Stretch × Stretch
  | 0, i => ([], stretchAt s d i)
  | fuel + 1, i =>
    let next := stretchAt s d i
    if !next.kind.isTrivia then ([], next)
    else if next.kind = .lineEnd then ([next], stretchAt s d next.stop)
    else
      let (more, rest) := gatherLine s d fuel next.stop
      (next :: more, rest)

/-- Passes the token that has been read, and the trivia before the next one. -/
def advance (r : Cursor) : Cursor :=
  let s := r.source
  let r := if r.ahead.start ≠ 0 then { r with afterLine := r.trailing.getLast?.any (·.kind = .lineEnd) }
    else { r with ahead := stretchAt s r.dialect r.ahead.stop }
  let (leading, ahead) := gather s r.dialect (s.size + 1) r.ahead
  { r with ahead, leading, trailing := [], last := none, saved := ahead.start }

/-- How a node asks for its token to be read. -/
def mannerFor (r : Cursor) (b : Branch) : Manner :=
  let a := b.node
  match a.kind with
  | .greaterThanEqualsToken | .greaterThanGreaterThanEqualsToken
  | .greaterThanGreaterThanGreaterThanEqualsToken | .greaterThanGreaterThanGreaterThanToken
  | .greaterThanGreaterThanToken => .greater
  | .regularExpressionLiteral => .pattern
  | .templateMiddle | .templateTail => .template
  | .jsxText => .markupText
  | k =>
    let named := match b.parentKind with
      | .jsxAttribute | .jsxOpeningElement | .jsxClosingElement | .jsxSelfClosingElement => true
      | _ => false
    if named && (k = .identifier || k.isListedWord) then .markupName
    else if k = .jsxElement && r.last.any (·.token.kind = .token .jsxText) then .markupText
    else if b.parentKind = .jsxAttribute && a.info.label = .initializer then .markupValue
    else .plain

/-- Reads the next token for a node. A node that is a token itself gives the token its kind. -/
def read (r : Cursor) (b : Branch) : Reading × Cursor :=
  let s := r.source
  let wanted := r.mannerFor b
  let fixed (x : Reading) : Reading :=
    if b.kind.isToken then { x with token := { x.token with kind := .token b.kind } } else x
  match if wanted = r.manner then r.last else none with
  | some x => (fixed x, { r with last := some (fixed x) })
  | none =>
    let plain := if r.ahead.start ≠ r.saved then stretchAt s r.dialect r.saved else r.ahead
    let (token, manner) := tokenAs s r.dialect plain wanted
    let (trailing, ahead) := gatherLine s r.dialect (s.size + 1) token.stop
    let x := fixed ⟨r.leading, token, trailing⟩
    (x, { r with ahead, trailing, manner, last := some x })

/-- The kind of what is read next. -/
def kind (r : Cursor) : StretchKind := (r.last.map (·.token.kind)).getD r.ahead.kind

/-- There is a token to be read. -/
def onToken (r : Cursor) : Bool := r.kind ≠ .token .endOfFileToken && !r.kind.isTrivia

/-- Goes to an offset, past everything before it. -/
def skipTo (r : Cursor) (i : Nat) : Cursor :=
  { r with ahead := ⟨.token .unknown, i, i⟩, saved := i, leading := [], trailing := [], last := none,
           afterLine := false }

end Cursor
end Layout
end LintRepair.Syntax
