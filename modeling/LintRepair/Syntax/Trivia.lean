import LintRepair.Syntax.Letters
import LintRepair.Text.Basic

/-!
# Trivia

What stands between tokens: white space, line ends, comments, the marks of an unresolved merge and the
line that names an interpreter. Offsets count code units; a unit beyond the end reads as `none`.
-/
namespace LintRepair.Syntax

/-- A source text that can be read at any offset. -/
structure Source where
  units : Array UInt16
deriving Inhabited

namespace Source

def ofText (t : Text) : Source := ⟨t.toArray⟩

def size (s : Source) : Nat := s.units.size

/-- The unit at an offset; zero beyond the end. -/
def unitAt (s : Source) (i : Nat) : Nat := (s.units[i]?.getD 0).toNat

/-- The unit of a character of the basic plane stands at the offset. -/
def has (s : Source) (i : Nat) (c : Char) : Bool := i < s.size && s.unitAt i = c.toNat

/-- The code point that starts at an offset. -/
def codePoint (s : Source) (i : Nat) : Nat :=
  let high := s.units[i]?.getD 0
  let low := s.units[i + 1]?.getD 0
  if Text.isHigh high && Text.isLow low then Text.joinPair high low else high.toNat

/-- The number of units of a code point. -/
def width (c : Nat) : Nat := if c < 0x10000 then 1 else 2

def slice (s : Source) (start stop : Nat) : Text := (s.units.extract start stop).toList

theorem lt_size_of_codePoint {s : Source} {i : Nat} (h : s.codePoint i ≠ 0) : i < s.size := by
  refine Nat.lt_of_not_le fun hsize => h ?_
  have hnone : s.units[i]? = none := Array.getElem?_eq_none hsize
  rw [codePoint, hnone]
  rfl

/-- The first offset from `i` on at which `p` fails, or the end. -/
def skipWhile (s : Source) (p : Nat → Bool) (i : Nat) : Nat :=
  if i < s.size then if p (s.unitAt i) then skipWhile s p (i + 1) else i
  else i
termination_by s.size - i

theorem le_skipWhile (s : Source) (p : Nat → Bool) (i : Nat) : i ≤ s.skipWhile p i := by
  fun_induction skipWhile with
  | case1 i h hp ih => omega
  | case2 | case3 => exact Nat.le_refl _

/-- The offset behind a comment that runs to the end of its line. -/
def lineEnd (s : Source) (i : Nat) : Nat := s.skipWhile (fun c => !isLineEnd c) i

/-- The offset behind the next `*/`, and whether there is one. -/
def blockEnd (s : Source) (i : Nat) : Nat × Bool :=
  if i < s.size then
    if s.has i '*' && s.has (i + 1) '/' then (i + 2, true) else blockEnd s (i + 1)
  else (i, false)
termination_by s.size - i

/-- A line of seven equal marks, as a merge leaves it, starts at the offset. -/
def isConflict (s : Source) (i : Nat) : Bool :=
  (i = 0 || isLineEnd (s.unitAt (i - 1))) && i + 7 < s.size
    && ((List.range 7).all fun k => s.unitAt (i + k) = s.unitAt i)
    && (s.has i '=' || s.has (i + 7) ' ')

/-- The next mark that ends the part of a merge that `mark` opened. -/
def conflictPartEnd (s : Source) (mark : Nat) (i : Nat) : Nat :=
  if i < s.size then
    if (s.has i '=' || s.has i '>') && s.unitAt i ≠ mark && s.isConflict i then i
    else conflictPartEnd s mark (i + 1)
  else i
termination_by s.size - i

/-- The offset behind the mark of a merge that starts at `i`. -/
def conflictEnd (s : Source) (i : Nat) : Nat :=
  if s.has i '<' || s.has i '>' then s.lineEnd i else s.conflictPartEnd (s.unitAt i) i

def isShebang (s : Source) (i : Nat) : Bool := i = 0 && s.has 0 '#' && s.has 1 '!'

/-- A character with which the mark of a merge may begin. -/
def mayBeConflict (s : Source) (i : Nat) : Bool :=
  s.has i '<' || s.has i '>' || s.has i '=' || s.has i '|'

/-- One piece of trivia from `i` on ends at the answer; `none` where there is none. -/
def triviaStep (s : Source) (comments : Bool) (i : Nat) : Option Nat :=
  if s.size ≤ i then none
  else
    let c := s.unitAt i
    if isGap c || isLineEnd c then some (i + 1)
    else if comments && c = 0x2F && s.has (i + 1) '/' then some (s.lineEnd (i + 2))
    else if comments && c = 0x2F && s.has (i + 1) '*' then some (s.blockEnd (i + 2)).1
    else if s.mayBeConflict i && s.isConflict i then some (s.conflictEnd i)
    else if s.isShebang i then some (s.lineEnd i)
    else none

/-- The first offset from `i` on that is not trivia, with at most `fuel` pieces of it. -/
def skipTriviaFor (s : Source) (comments : Bool) : Nat → Nat → Nat
  | 0, i => i
  | fuel + 1, i =>
    match s.triviaStep comments i with
    | none => i
    | some j => skipTriviaFor s comments fuel j

/-- The first offset from `i` on that is not trivia. -/
def skipTrivia (s : Source) (i : Nat) : Nat := s.skipTriviaFor true (s.size - i) i

/-- The first offset from `i` on that is neither white space nor a line end. -/
def skipBlanks (s : Source) (i : Nat) : Nat := s.skipTriviaFor false (s.size - i) i

theorem le_blockEnd (s : Source) (i : Nat) : i ≤ (s.blockEnd i).1 := by
  fun_induction blockEnd with
  | case1 | case2 | case3 => lia

theorem le_conflictPartEnd (s : Source) (mark i : Nat) : i ≤ s.conflictPartEnd mark i := by
  fun_induction conflictPartEnd with
  | case1 | case2 | case3 => lia

theorem le_conflictEnd (s : Source) (i : Nat) : i ≤ s.conflictEnd i := by
  rw [conflictEnd]
  split
  · exact s.le_skipWhile _ i
  · exact s.le_conflictPartEnd _ i

theorem le_of_triviaStep {s : Source} {comments : Bool} {i j : Nat}
    (h : s.triviaStep comments i = some j) : i ≤ j := by
  unfold triviaStep at h
  dsimp only at h
  split at h
  · cases h
  split at h
  · cases h
    omega
  split at h
  · cases h
    have hline := s.le_skipWhile (fun c => !isLineEnd c) (i + 2)
    rw [lineEnd]
    omega
  split at h
  · cases h
    have hblock := s.le_blockEnd (i + 2)
    omega
  split at h
  · cases h
    exact s.le_conflictEnd i
  split at h
  · cases h
    exact s.le_skipWhile _ i
  · cases h

theorem le_skipTrivia (s : Source) (i : Nat) : i ≤ s.skipTrivia i := by
  rw [skipTrivia]
  generalize s.size - i = fuel
  induction fuel generalizing i with
  | zero => exact Nat.le_refl i
  | succ fuel ih =>
    rw [skipTriviaFor]
    split
    · exact Nat.le_refl i
    · next j hstep => exact Nat.le_trans (le_of_triviaStep hstep) (ih j)

theorem skipTrivia_of_triviaStep {s : Source} {i : Nat} (h : s.triviaStep true i = none) : s.skipTrivia i = i := by
  rw [skipTrivia]
  cases s.size - i with
  | zero => rfl
  | succ fuel => rw [skipTriviaFor, h]

theorem unitAt_of_has {s : Source} {i : Nat} {c : Char} (h : s.has i c = true) : s.unitAt i = c.toNat := by
  rw [has, Bool.and_eq_true] at h
  exact of_decide_eq_true h.2

theorem skipTrivia_of_brace {s : Source} {i : Nat} (h : s.has i '\x7b' = true) : s.skipTrivia i = i := by
  have hunit : s.unitAt i = 0x7B := unitAt_of_has h
  have hother : ∀ c : Char, c.toNat ≠ 0x7B → s.has i c = false := by
    intro c hc
    exact Bool.eq_false_iff.mpr fun hhas => hc ((unitAt_of_has hhas).symm.trans hunit)
  have hshebang : s.isShebang i = false := by
    rw [isShebang]
    by_cases hi : i = 0
    · subst hi
      rw [hother '#' (by decide), Bool.and_false, Bool.false_and]
    · rw [decide_eq_false hi, Bool.false_and, Bool.false_and]
  refine skipTrivia_of_triviaStep ?_
  rw [triviaStep, hunit, hshebang, mayBeConflict, hother '<' (by decide), hother '>' (by decide),
    hother '=' (by decide), hother '|' (by decide)]
  dsimp only
  split <;> rfl

/-- A blank or the end of a line is trivia. -/
theorem skipTrivia_succ {s : Source} {i : Nat} (hi : i < s.size)
    (h : (isGap (s.unitAt i) || isLineEnd (s.unitAt i)) = true) : s.skipTrivia i = s.skipTrivia (i + 1) := by
  have hstep : s.triviaStep true i = some (i + 1) := by
    rw [triviaStep, if_neg (Nat.not_le_of_lt hi)]
    exact if_pos h
  rw [skipTrivia, skipTrivia, (by omega : s.size - i = s.size - (i + 1) + 1), skipTriviaFor, hstep]

end Source
end LintRepair.Syntax
