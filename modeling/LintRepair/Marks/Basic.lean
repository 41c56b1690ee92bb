import LintRepair.Tree.Basic

/-!
# Marks

A small bracket language with nothing to analyze but nesting: `<Name` opens a node of that kind, `>`
closes the innermost one, and everything else is text. It exercises trees, edits and the repair loop
without a grammar of its own.
-/
namespace LintRepair.Marks

def openMark : UInt16 := 0x3C

def closeMark : UInt16 := 0x3E

def isLetter (u : UInt16) : Bool := (0x41 ≤ u && u ≤ 0x5A) || (0x61 ≤ u && u ≤ 0x7A)

def isNameUnit (u : UInt16) : Bool := isLetter u || (0x30 ≤ u && u ≤ 0x39)

/-- The longest kind name looked for. -/
def maxName : Nat := 64

/-- The kind name at the start of a text; it starts with a letter. -/
def name (t : Text) : Text :=
  if t.head?.any isLetter then (t.take maxName).takeWhile isNameUnit else []

/-- Text in front of pieces, unless it is empty. -/
def withText (pending : Text) (p : Pieces) : Pieces :=
  if pending.isEmpty then p else .text pending.reverse p

/-- What stands around the text being read: the innermost open node, if any. -/
structure Frame where
  opened : Option (String × Nat)
  place : Place
deriving Repr, Inhabited

/-- The pieces of a body up to its end, with the rest of the text and its offset. `pending` is the
text read since the last node, last unit first. -/
def body (file : String) : Nat → Frame → Nat → Text → Text → Nat → Except Fault (Pieces × Text × Nat)
  | 0, _, _, pending, rest, offset => return (withText pending .nil, rest, offset)
  | _ + 1, frame, _, pending, [], offset =>
    match frame.opened with
    | none => return (withText pending .nil, [], offset)
    | some (kind, start) =>
      throw (.unparsable file ("unclosed '<" ++ kind ++ "' at " ++ toString start) 1)
  | n + 1, frame, child, pending, u :: rest, offset =>
    if u = closeMark then
      match frame.opened with
      | none => throw (.unparsable file ("unexpected '>' at " ++ toString offset) 1)
      | some _ => return (withText (u :: pending) .nil, rest, offset + 1)
    else if u = openMark && !(name rest).isEmpty then do
      let kind := name rest
      let inside : Frame := ⟨some (kind.toString, offset), child :: frame.place⟩
      let (inner, rest', stop) ←
        body file n inside 0 (kind.reverse ++ [openMark]) (rest.drop kind.length)
          (offset + 1 + kind.length)
      let (after, rest'', stop') ← body file n frame (child + 1) [] rest' stop
      return (withText pending
        (.node kind.toString (some ⟨offset, stop⟩) (some inside.place) inner after), rest'', stop')
    else body file n frame child (u :: pending) rest (offset + 1)

/-- The whole text as a node of kind `Root`. -/
def parse (text : Text) (file : String) : Except Fault Template := do
  let (pieces, _, _) ← body file (text.length + 1) ⟨none, []⟩ 0 [] text 0
  return ⟨"Root", some ⟨0, text.length⟩, some [], pieces⟩

/-- A snippet: its only node, or all of it as a node of kind `Raw`. -/
def fragment (code : Text) : Except Fault Template := do
  let root ← parse code "fragment"
  match root.detached.body with
  | .node kind _ _ inner .nil => return ⟨kind, none, none, inner⟩
  | pieces => return ⟨"Raw", none, none, pieces⟩

/-- A parsed node with what checks look at. -/
structure MarkedNode where
  kind : String
  span : Span
  place : Place
  childCount : Nat
deriving Repr, Inhabited

/-- The number of nodes that stand directly among the pieces. -/
def directNodes : Pieces → Nat
  | .nil => 0
  | .text _ rest => directNodes rest
  | .node _ _ _ _ rest => directNodes rest + 1

/-- The parsed nodes among the pieces, each before those inside it. -/
def nodesOf : Pieces → List MarkedNode
  | .nil => []
  | .text _ rest => nodesOf rest
  | .node kind span origin body rest =>
    ⟨kind, span.getD ⟨0, 0⟩, origin.getD [], directNodes body⟩ :: (nodesOf body ++ nodesOf rest)

/-- All nodes of a parsed text, the root first. -/
def nodes (root : Template) : List MarkedNode := nodesOf (root.consPieces .nil)

/-- A tree's text, laid out anew by turning every tab into two spaces. -/
def relayout (t : Text) : Text := t.flatMap fun u => if u = 0x09 then [0x20, 0x20] else [u]

end LintRepair.Marks
