import LintRepair.Syntax.Trivia

/-!
# Comments

The comments in the trivia at an offset. Those that trail the token before the offset stand on its line;
those that lead the token behind it stand on later lines, or anywhere at the start of a file.
-/
namespace LintRepair.Syntax

structure Comment where
  start : Nat
  stop : Nat
  /-- The comment has a closing mark of its own. -/
  block : Bool
  /-- A line ends behind the comment before anything else follows. -/
  endsLine : Bool
deriving DecidableEq, Repr, Inhabited

namespace Source

/-- The comment behind whose extent a line has ended. -/
def endedLine (pending : Option Comment) : Option Comment := pending.map fun c => { c with endsLine := true }

/-- The comments from an offset on. When `trailing`, those on the same line; otherwise those behind the next
line end, or all of them once `collecting`. The last comment read waits until it is known whether a line
ends behind it. -/
def commentsFrom (s : Source) (trailing : Bool) : Nat → Bool → Option Comment → Nat → List Comment
  | 0, _, pending, _ => pending.toList
  | fuel + 1, collecting, pending, i =>
    let c := s.unitAt i
    if s.size ≤ i then pending.toList
    else if c = 0x0D || c = 0x0A then
      let j := if c = 0x0D && s.has (i + 1) '\n' then i + 2 else i + 1
      if trailing then pending.toList
      else commentsFrom s trailing fuel true (endedLine pending) j
    else if s.has i '/' && (s.has (i + 1) '/' || s.has (i + 1) '*') then
      let block := s.has (i + 1) '*'
      let stop := if block then (s.blockEnd (i + 2)).1 else s.lineEnd (i + 2)
      let comment : Comment := ⟨i, stop, block, !block && stop < s.size⟩
      if collecting then
        pending.toList ++ commentsFrom s trailing fuel collecting (some comment) stop
      else commentsFrom s trailing fuel collecting pending stop
    else if isGap c then commentsFrom s trailing fuel collecting pending (i + 1)
    else if isLineEnd c then commentsFrom s trailing fuel collecting (endedLine pending) (i + 1)
    else pending.toList

/-- Where the trivia of a file begins, behind the line that names an interpreter. -/
def triviaStart (s : Source) (i : Nat) : Nat := if s.isShebang i then s.lineEnd i else i

/-- Comments that lead the token behind an offset. -/
def leadingComments (s : Source) (i : Nat) : List Comment :=
  s.commentsFrom false (s.size - i + 1) (i = 0) none (s.triviaStart i)

/-- Comments that trail the token before an offset. -/
def trailingComments (s : Source) (i : Nat) : List Comment :=
  s.commentsFrom true (s.size - i + 1) true none (s.triviaStart i)

/-- A comment that documents what follows it. -/
def isDoc (s : Source) (c : Comment) : Bool :=
  s.has (c.start + 1) '*' && s.has (c.start + 2) '*' && !s.has (c.start + 3) '/'

end Source
end LintRepair.Syntax
