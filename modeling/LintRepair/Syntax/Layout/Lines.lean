import LintRepair.Syntax.Trivia
import LintRepair.Text.Position

/-!
# Lines of a source text

A source text with the places where its lines start. A line ends with any of the line ends of the language; a
carriage return and the line feed behind it are one of them.
-/
namespace LintRepair.Syntax.Layout

structure Lines where
  source : Source
  starts : Array Nat
  /-- The width of a level of indentation, to whose multiples tabs go. -/
  width : Nat
deriving Inhabited

namespace Lines

/-- The starts of the lines behind an offset. -/
def startsFrom (s : Source) : Nat → Nat → List Nat
  | 0, _ => []
  | fuel + 1, i =>
    let next := s.lineEnd i + (if s.has (s.lineEnd i) '\r' && s.has (s.lineEnd i + 1) '\n' then 2 else 1)
    if s.lineEnd i < s.size then next :: startsFrom s fuel next else []

def ofSource (s : Source) (width : Nat) : Lines := ⟨s, (0 :: startsFrom s s.size 0).toArray, width⟩

/-- The line, counted from zero, on which an offset is. -/
def lineOf (l : Lines) (i : Nat) : Nat := Text.searchLine l.starts i 0 (l.starts.size - 1)

/-- Where a line starts. -/
def startOf (l : Lines) (line : Nat) : Nat := l.starts.getD line l.source.size

/-- Where a line ends, without its line end. -/
def stopOf (l : Lines) (line : Nat) : Nat :=
  if line + 1 < l.starts.size then min (l.source.lineEnd (l.startOf line)) (l.startOf (line + 1))
  else l.source.size

/-- Two offsets are on one line. -/
def together (l : Lines) (a b : Nat) : Bool := l.lineOf a = l.lineOf b

/-- The white space from `i` up to at most `stop` ends at the answer. -/
def gapEnd (l : Lines) (i stop : Nat) : Nat := min stop (l.source.skipWhile isGap i)

/-- The column to which the units from `i` up to `stop` lead. -/
def columnOf (l : Lines) (i stop : Nat) : Nat :=
  (l.source.slice i stop).foldl (fun column u =>
    if u = 0x09 then column + (l.width - column % l.width) else column + 1) 0

/-- The column of the first unit from `i` up to `stop` that is no white space. A tab is as wide as a level and
what is left over of the levels before it. -/
def firstColumn (l : Lines) (i stop : Nat) : Nat :=
  (l.source.slice i (l.gapEnd i stop)).foldl (fun column u =>
    if u = 0x09 then column + l.width + column % l.width else column + 1) 0

end Lines

/-- A piece of the text from `start` to `stop` is to be replaced. -/
structure Change where
  start : Nat
  stop : Nat
  text : Text
deriving DecidableEq, Repr, Inhabited

namespace Change

/-- The text with changes made, which are in order; where one starts before the end of the last, what is
between the two places is there again. -/
def assemble (s : Source) : Nat → List Change → Text
  | cursor, [] => s.slice cursor s.size
  | cursor, c :: rest =>
    s.slice (min cursor c.start) (max cursor c.start) ++ c.text ++ assemble s c.stop rest

/-- The text with changes made in the order of their places. -/
def apply (s : Source) (changes : List Change) : Text :=
  assemble s 0 (changes.mergeSort fun a b => a.start ≤ b.start)

theorem apply_nil (s : Source) : apply s [] = s.slice 0 s.size := by
  simp [apply, assemble]

end Change
end LintRepair.Syntax.Layout
