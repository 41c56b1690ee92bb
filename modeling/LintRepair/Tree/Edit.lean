import LintRepair.Tree.Basic

/-!
# Changing a tree

Replacing, inserting and deleting nodes. Each operation either succeeds with a new tree or fails and
leaves nothing behind. Deleting also takes what the node leaves meaningless: the comma that joined it
to a neighbour, or the line that held nothing else.
-/
namespace LintRepair

namespace Text

def comma : UInt16 := 0x2C

def lineFeed : UInt16 := 0x0A

def carriageReturn : UInt16 := 0x0D

/-- The text ends in a comma and blanks. -/
def endsInComma (t : Text) : Bool := t.trimRight.getLast? = some comma

/-- The text up to the comma that it ends in. -/
def dropLastComma (t : Text) : Text := t.trimRight.dropLast

/-- The text starts with blanks and a comma. -/
def startsWithComma (t : Text) : Bool := t.trimLeft.head? = some comma

/-- The text after its first comma and the blanks around it. -/
def dropFirstComma (t : Text) : Text := trimLeft (t.trimLeft.drop 1)

/-- Nothing but spaces stands after the last line start. -/
def endsAtLineStart (t : Text) : Bool :=
  let rest := t.dropRightWhile isSpace
  rest.isEmpty || rest.getLast? = some lineFeed

/-- Nothing but spaces stands before the first line end. -/
def startsAtLineEnd (t : Text) : Bool :=
  match t.dropWhile isSpace with
  | [] => true
  | [u] => u = lineFeed
  | u :: v :: _ => u = lineFeed || (u = carriageReturn && v = lineFeed)

/-- The text after its first line end, if only spaces stand before it. -/
def dropLineEnd (t : Text) : Text :=
  match t.dropWhile isSpace with
  | [] => t
  | u :: rest =>
    if u = lineFeed then rest
    else if u = carriageReturn && rest.head? = some lineFeed then rest.drop 1
    else t

end Text

namespace Part

/-- The separator of an insertion: the blanks that end the text before, else a line feed. -/
def separator (before : List Part) : Text :=
  match before.getLast? with
  | some (text t) => if t.blankSuffix.isEmpty then [Text.lineFeed] else t.blankSuffix
  | _ => [Text.lineFeed]

/-- The parts with the last one replaced by a text. -/
def setLast (parts : List Part) (t : Text) : List Part := parts.dropLast ++ [text t]

/-- What is left of the parts around a deleted node. -/
def tidy (atRoot : Bool) (before after : List Part) : List Part × List Part :=
  let previous := before.getLast?
  let next := after.head?
  let previousText := (previous.bind text?).getD []
  let nextText := (next.bind text?).getD []
  let previousIsNode := previous.any isNode
  let nextIsNode := next.any isNode
  if previousText.endsInComma then (setLast before previousText.dropLastComma, after)
  else if nextText.startsWithComma && !previousIsNode then
    (before, text nextText.dropFirstComma :: after.drop 1)
  else if previousIsNode || nextIsNode then (before, after)
  else
    let startsLine := previousText.endsAtLineStart
      && (previousText.contains Text.lineFeed || (atRoot && before.length ≤ 1))
    let endsLine := nextText.startsAtLineEnd
      && (nextText.contains Text.lineFeed || (atRoot && next.isNone))
    if startsLine && endsLine then
      (if previous.isSome then setLast before (previousText.dropRightWhile Text.isSpace) else before,
        if next.isSome then text nextText.dropLineEnd :: after.drop 1 else after)
    else if previousText.getLast?.any Text.isSpace && nextText.head?.any Text.isSpace then
      (before, text (nextText.dropWhile Text.isSpace) :: after.drop 1)
    else (before, after)

end Part

namespace Tree

/-- Where a node stands among the parts of its parent. -/
structure Seat where
  parent : Handle
  parentNode : Node
  before : List Part
  after : List Part
deriving Repr, Inhabited

/-- The seat of a node that an operation may move; the root has none. -/
def seat (t : Tree) (h : Handle) (operation : String) : Except Fault Seat := do
  let node ← t.get h
  match node.parent with
  | none => throw (.rootMutation h operation)
  | some p =>
    let parentNode ← t.get p
    match Part.around h parentNode.parts with
    | none => throw (.detachedNode h p)
    | some (before, after) => return ⟨p, parentNode, before, after⟩

def setNode (t : Tree) (h : Handle) (node : Option Node) : Tree :=
  { t with slots := t.slots.setIfInBounds h.toNat node }

/-- The tree with a template's nodes in the next free slots. -/
def graft (t : Tree) (template : Template) (parent : Handle) : Tree :=
  { t with slots := t.slots ++ ((template.arena (some parent) t.slots.size).map some).toArray }

/-- The handle that the next grafted node gets. -/
def nextHandle (t : Tree) : Handle := t.slots.size

/-- Empties the slots of some handles. -/
def eraseAll (t : Tree) (hs : List Handle) : Tree := hs.foldl (fun t h => t.setNode h none) t

def markDirty (t : Tree) (h : Handle) : Tree :=
  match t.node? h with
  | some node => t.setNode h (some { node with dirty := true })
  | none => t

/-- Gives a node new parts and marks it and every node around it as changed. -/
def setParts (t : Tree) (h : Handle) (node : Node) (parts : List Part) : Tree :=
  (h :: t.ancestors h).foldl markDirty (t.setNode h (some { node with parts := parts }))

/-- Puts a template in the place of a node. -/
def replace (t : Tree) (h : Handle) (template : Template) : Except Fault (Tree × Handle) := do
  let seat ← t.seat h "replace"
  let new := t.nextHandle
  let grafted := (t.graft template seat.parent).eraseAll (t.subtree h)
  return (grafted.setParts seat.parent seat.parentNode (seat.before ++ .node new :: seat.after), new)

/-- Puts a template and a separator in front of a node. -/
def insertBefore (t : Tree) (h : Handle) (template : Template) (separator : Option Text) :
    Except Fault (Tree × Handle) := do
  let seat ← t.seat h "insert before"
  let sep := separator.getD (Part.separator seat.before)
  let new := t.nextHandle
  let parts := seat.before ++ .node new :: .text sep :: .node h :: seat.after
  return ((t.graft template seat.parent).setParts seat.parent seat.parentNode (Part.normalize parts), new)

/-- Puts a separator and a template behind a node. -/
def insertAfter (t : Tree) (h : Handle) (template : Template) (separator : Option Text) :
    Except Fault (Tree × Handle) := do
  let seat ← t.seat h "insert after"
  let sep := separator.getD (Part.separator seat.before)
  let new := t.nextHandle
  let parts := seat.before ++ .node h :: .text sep :: .node new :: seat.after
  return ((t.graft template seat.parent).setParts seat.parent seat.parentNode (Part.normalize parts), new)

/-- Removes a node and tidies the text around it. -/
def delete (t : Tree) (h : Handle) : Except Fault Tree := do
  let seat ← t.seat h "delete"
  let (before, after) := Part.tidy seat.parentNode.parent.isNone seat.before seat.after
  return (t.eraseAll (t.subtree h)).setParts seat.parent seat.parentNode
    (Part.normalize (before ++ after))

end Tree
end LintRepair
