import LintRepair.Syntax.Layout.Spacing

/-!
# Changes to a layout

The changes that a walk through the text collects: line ends are freed of white space before them, lines and
comments are indented, and between two neighbours comes what the rule of their site wants.
-/
namespace LintRepair.Syntax.Layout

/-- What a change between two neighbours does to the number of lines. -/
inductive LineChange where
  | same | added | removed
deriving DecidableEq, Repr, Inhabited

/-- How the lines of a node are indented. -/
structure Frame where
  branch : Branch
  /-- The line on which the node starts. -/
  line : Nat
  indentation : Int
  /-- How much further in the further lines of the node are. -/
  step : Nat
deriving Inhabited

namespace Frame

/-- How much further in a child is than the node. -/
def stepFor (f : Frame) (l : Lines) (child : Ast) : Nat :=
  if indents l f.branch.node (some child) true then f.step else 0

/-- The node has come to another line, inside the node `around`. -/
def moved (f : Frame) (l : Lines) (change : LineChange) (around : Ast) : Frame :=
  if change = .same || !indents l around (some f.branch.node) false then f
  else
    { f with indentation := if change = .added then f.indentation + l.width else f.indentation - l.width
             step := if indents l f.branch.node none false then l.width else 0 }

end Frame

/-- A stretch that has been passed. -/
structure Passed where
  stretch : Stretch
  /-- The node that it belongs to. -/
  branch : Branch
  line : Nat
deriving Inhabited

/-- How far a walk through a text has come, and the changes that it has found. -/
structure Walk where
  lines : Lines
  cursor : Cursor
  /-- The node in which what comes next meets what was before. -/
  within : Branch
  previous : Option Passed := none
  /-- The last line that was indented, and how far. -/
  indented : Option (Nat × Int) := none
  /-- The last change comes first. -/
  changes : List Change := []
deriving Inhabited

abbrev Walker := StateM Walk

namespace Walker

def lines : Walker Lines := return (← get).lines

/-- Notes that a piece of the text is to be replaced. -/
def replace (start stop : Nat) (text : Text) : Walker Unit :=
  if start = stop && text.isEmpty then pure ()
  else modify fun w => { w with changes := ⟨start, stop, text⟩ :: w.changes }

/-! ## Line ends -/

/-- Where the white space at the end of a line starts. -/
def trailStart (l : Lines) (line : Nat) : Nat :=
  l.stopOf line
    - ((l.source.slice (l.startOf line) (l.stopOf line)).reverse.takeWhile fun u => isGap u.toNat).length

/-- The end of a line is part of a comment, a text or a pattern. -/
def endsInside (l : Lines) (line : Nat) (x : Stretch) : Bool :=
  let mayHoldBlanks := match x.kind with
    | .token .stringLiteral | .token .regularExpressionLiteral | .token .noSubstitutionTemplateLiteral
    | .token .templateHead | .token .templateMiddle | .token .templateTail => true
    | k => k.isRemark
  mayHoldBlanks && x.start < l.stopOf line && l.stopOf line ≤ x.stop

/-- Frees the ends of lines, from one up to another, of white space; not where it is part of a stretch. -/
def trim (first stop : Nat) (around : Option Stretch) : Walker Unit := do
  let l ← lines
  (List.range' first (stop - first)).forM fun line => do
    if !around.any (endsInside l line) then replace (trailStart l line) (l.stopOf line) []

/-! ## Indentation -/

def blanks (n : Int) : Text := List.replicate n.toNat (Text.unit ' ')

/-- Sets how far what starts at an offset is indented; it may have come to a new line of its own. -/
def indent (i : Nat) (n : Int) (added : Bool) : Walker Unit := do
  let l ← lines
  if added then replace i i (blanks n)
  else
    let start := l.startOf (l.lineOf i)
    if n ≠ l.columnOf start i || l.source.slice start (start + n.toNat) ≠ blanks n then
      replace start i (blanks n)

/-- Shifts the line that starts at a place; its indentation ends before another place. -/
def shift (start stop : Nat) (by_ : Int) : Walker Unit := do
  let l ← lines
  replace start (start + (l.gapEnd start stop - start)) (blanks (l.firstColumn start stop + by_))

/-- Indents a comment; its lines are shifted together. The first one may be indented already. -/
def indentRemark (x : Stretch) (n : Int) (indented : Bool) : Walker Unit := do
  let l ← lines
  let first := l.lineOf x.start
  let last := l.lineOf x.stop
  if first = last then
    if !indented then indent x.start n false
  else
    let by_ := n - l.firstColumn (l.startOf first) x.start
    if !indented then shift (l.startOf first) x.start by_
    (List.range' (first + 1) (last - first)).forM fun line =>
      shift (l.startOf line) (if line = last then x.stop else l.stopOf line - 1) by_

/-- Indents the comments among trivia as far as their lines start with them; the answer is whether what comes
next starts a line. -/
def indentTrivia (n : Int) (alone : Stretch → Walker Unit) : List Stretch → Bool → Walker Bool
  | [], atStart => return atStart
  | x :: rest, atStart => do
    match x.kind with
    | .blockRemark =>
      indentRemark x n !atStart
      indentTrivia n alone rest false
    | .lineRemark =>
      if atStart then alone x
      indentTrivia n alone rest false
    | .lineEnd => indentTrivia n alone rest true
    | _ => indentTrivia n alone rest atStart

/-! ## Neighbours -/

/-- Brings about what a rule wants between two neighbours. -/
def space (r : SpacingRule) (before behind : Stretch) (beforeLine line : Nat) : Walker LineChange := do
  let l ← lines
  let apart : Bool := line ≠ beforeLine
  let gap := l.source.slice before.stop behind.start
  match r.spacing with
  | .asIs => return .same
  | .nothing =>
    if before.stop = behind.start then return .same
    replace before.stop behind.start []
    return if apart then .removed else .same
  | .lineEnd =>
    if apart then return .same
    replace before.stop behind.start [Text.unit '\n']
    return .added
  | .blank =>
    if apart && !r.joins || gap = [Text.unit ' '] then return .same
    replace before.stop behind.start [Text.unit ' ']
    return if apart then .removed else .same

/-- Brings about what is wanted between what was before and a stretch of a node. -/
def meet (p : Passed) (x : Stretch) (line : Nat) (b : Branch) (f : Frame) :
    Walker (LineChange × Frame) := do
  let w ← get
  let l := w.lines
  let site : Site := ⟨l, p.stretch, p.branch, x, b, w.within⟩
  let rule := ruleAt? site
  let change ← match rule with
    | some r => space r p.stretch x p.line line
    | none => pure .same
  let keepsTrail := rule.any fun r => r.spacing = .nothing || r.joins
  if line ≠ p.line && !keepsTrail then trim p.line line (some p.stretch)
  return (change, if b.node.start = x.start then f.moved l change w.within.node else f)

/-- Passes a token or a comment of a node. -/
def pass (x : Stretch) (b : Branch) (f : Frame) : Walker (LineChange × Frame) := do
  let w ← get
  let line := w.lines.lineOf x.start
  let answer ← match w.previous with
    | none => do
      trim 0 line none
      pure (LineChange.same, f)
    | some p => meet p x line b f
  modify fun w => { w with previous := some ⟨x, b, line⟩ }
  return answer

/-- Passes the comments among trivia. -/
def passRemarks (b : Branch) : List Stretch → Frame → Walker Frame
  | [], f => return f
  | x :: rest, f => do
    if x.kind.isRemark then passRemarks b rest (← pass x b f).2 else passRemarks b rest f

end Walker
end LintRepair.Syntax.Layout
