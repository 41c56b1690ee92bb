import LintRepair.Syntax.Ast
import LintRepair.Syntax.Comments
import LintRepair.Text.Blank

/-!
# Pages

What has been printed so far, and what the next piece of text has to know: how far a new line is indented,
and which comments the nodes around have already taken.
-/
namespace LintRepair.Syntax.Print

/-- The number of blanks of a level of indentation on a page. -/
def levelWidth : Nat := 4

/-- The page under the pen, with what the comments in the source need: an outer node prints the comments at
its own ends, so no inner one does. -/
structure Page where
  source : Source
  /-- The source is one value. -/
  data : Bool := false
  /-- All declarations of the source are ambient. -/
  ambient : Bool := false
  /-- The printed text from its end. -/
  written : Text := []
  /-- Nothing stands on the open line. -/
  fresh : Bool := true
  /-- The last thing on the page is a comment. -/
  endsInRemark : Bool := false
  level : Nat := 0
  /-- The comments that lead the token here belong to a node around. -/
  heldStart : Option Nat := none
  /-- The comments that trail the token here belong to a node around. -/
  heldStop : Option Nat := none
  /-- The same for the last list of variables. -/
  variablesStop : Option Nat := none
  /-- The comments last looked for were there. -/
  commented : Bool := false
  /-- Where comments stand on their own, and where they end. -/
  detached : List (Nat × Nat) := []
  /-- Where the current element of a list starts. -/
  element : Option Nat := none
deriving Inhabited

abbrev Printer := StateM Page

/-- The printed text. -/
def Page.text (p : Page) : Text := p.written.reverse

/-- Blanks, as many as given. -/
def blanks (n : Nat) : Text := List.replicate n (Text.unit ' ')

namespace Printer

def source : Printer Source := return (← get).source

/-- Puts down a text without indenting the line. -/
def putRaw (t : Text) : Printer Unit :=
  modify fun p =>
    { p with written := t.reverse ++ p.written
             fresh := (t.getLast?).any fun u => isLineEnd u.toNat
             endsInRemark := false }

def put (t : Text) : Printer Unit := do
  if t.isEmpty then return
  let p ← get
  putRaw (if p.fresh then blanks (p.level * levelWidth) ++ t else t)

/-- Puts down a piece of a comment. -/
def putRemark (t : Text) : Printer Unit := do
  put t
  modify fun p => { p with endsInRemark := true }

def write (s : String) : Printer Unit := put (Text.ofString s)

def token (k : Kind) : Printer Unit := write k.text

def space : Printer Unit := write " "

/-- Ends the open line, if anything stands on it. -/
def newLine : Printer Unit := do
  if !(← get).fresh then putRaw [Text.unit '\n']

/-- Prints one level further in. -/
def indented {α : Type} (r : Printer α) : Printer α := do
  modify fun p => { p with level := p.level + 1 }
  let a ← r
  modify fun p => { p with level := p.level - 1 }
  return a

def indentedIf {α : Type} (c : Bool) (r : Printer α) : Printer α := if c then indented r else r

/-- Two places of the source are on one line. -/
def sameLine (a b : Nat) : Printer Bool := do
  let s ← source
  let low := min a b
  return max a b ≤ s.skipWhile (fun c => !isLineEnd c) low

/-- The place of the first token behind another place. -/
def tokenAfter (i : Nat) : Printer Nat := return (← source).skipTrivia i

end Printer
end LintRepair.Syntax.Print
