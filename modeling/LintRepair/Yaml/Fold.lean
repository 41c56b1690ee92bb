import LintRepair.Text.Basic

/-!
# Folded text

A text that is too long for its line is broken at single blanks, or inside quotes at any place.
-/
namespace LintRepair.Yaml

namespace Fold

/-- The width of a line. -/
def lineWidth : Nat := 80

/-- The least width that is left for text, however deep it stands. -/
def leastWidth : Nat := 20

def isBlankUnit (u : UInt16) : Bool := u = Text.unit ' ' || u = Text.unit '\t'

def isSpaceUnit (u : UInt16) : Bool := isBlankUnit u || u = Text.unit '\n'

/-- How far the search for places to break has come. -/
structure Search where
  /-- Text from here on is too far out. -/
  stop : Int
  /-- The last blank at which the line may be broken. -/
  split : Option Nat := none
  before : Option UInt16 := none
  /-- The last escape in the text. -/
  escape : Option (Int × Int) := none
  /-- The places at which lines are broken, the last one first; whether inside a word. -/
  breaks : List (Int × Bool) := []
deriving Repr, Inhabited

/-- The length of the escape at a backslash, less one. -/
def escapeReach (next : Option UInt16) : Nat :=
  if next = some (Text.unit 'x') then 3
  else if next = some (Text.unit 'u') then 5
  else if next = some (Text.unit 'U') then 9
  else 1

/-- The first place from `i` on that does not come behind a blank. -/
def passBlanks (t : Array UInt16) : Nat → Option UInt16 → Nat → Nat
  | 0, _, i => i
  | fuel + 1, before, i => if before.any isBlankUnit then passBlanks t fuel t[i]? (i + 1) else i

/-- Looks for places to break from `i` on. There is no answer if a text in quotes leaves no room at all. -/
def search (t : Array UInt16) (quoted : Bool) (indent step : Nat) : Nat → Nat → Search → Option Search
  | 0, _, s => some s
  | fuel + 1, i, s =>
    match t[i]? with
    | none => some s
    | some u =>
      let isEscape := quoted && u = Text.unit '\\'
      let last := if isEscape then i + escapeReach t[i + 1]? else i
      let s := if isEscape then { s with escape := some (i, last) } else s
      if u = Text.unit '\n' then
        search t quoted indent step fuel (last + 1)
          { s with stop := last + indent + step, split := none, before := some u }
      else
        let mayBreak := u = Text.unit ' ' && (s.before.any (!isSpaceUnit ·)) && (t[last + 1]?).any (!isSpaceUnit ·)
        let s := if mayBreak then { s with split := some last } else s
        if (last : Int) < s.stop then search t quoted indent step fuel (last + 1) { s with before := some u }
        else
          match s.split, quoted with
          | some (at_ + 1), _ =>
            search t quoted indent step fuel (last + 1)
              { s with stop := at_ + 1 + step, split := none, before := some u
                       breaks := (((at_ : Int) + 1), false) :: s.breaks }
          | _, true =>
            let i := if s.before.any isBlankUnit then passBlanks t t.size (some u) (last + 1) else last
            let (escapeStart, escapeStop) := s.escape.getD (-1, -1)
            let place : Int := if escapeStop + 1 < i then (i : Int) - 2 else escapeStart - 1
            if s.breaks.any (· = (place, true)) then none
            else
              search t quoted indent step fuel (i + 1)
                { s with stop := place + step, split := none, before := t[i]?
                         breaks := (place, true) :: s.breaks }
          | _, false => search t quoted indent step fuel (last + 1) { s with before := some u }

/-- The text between the places at which it is broken. -/
def assemble (t : Text) (indent : Nat) : List (Int × Bool) → Text
  | [] => []
  | (place, inWord) :: rest =>
    let stop := match rest with
      | (next, _) :: _ => if next = 0 then t.length else next.toNat
      | [] => t.length
    let lineStart := Text.unit '\n' :: List.replicate indent (Text.unit ' ')
    let mark := if inWord then t.slice place.toNat (place.toNat + 1) ++ [Text.unit '\\'] else []
    mark ++ lineStart ++ t.slice (if place = 0 then 0 else (place + 1).toNat) stop ++ assemble t indent rest

end Fold

/-- A text folded to lines with an indentation; `lead` is where its first line begins. -/
def folded (t : Text) (quoted : Bool) (indent : Nat) (lead : Option Nat) : Text :=
  let step := max (1 + Fold.leastWidth) (1 + Fold.lineWidth - indent)
  if t.length ≤ step then t
  else
    let tooFar := lead.any (Fold.lineWidth - max 2 Fold.leastWidth < ·)
    let stop : Int := if tooFar then Fold.lineWidth - indent
      else Fold.lineWidth - (lead.getD indent : Nat)
    let start : Fold.Search := { stop, breaks := if tooFar then [(0, false)] else [] }
    match Fold.search t.toArray quoted indent step (t.length + 1) 0 start with
    | none => t
    | some s =>
      match s.breaks.reverse with
      | [] => t
      | (0, _) :: rest => Fold.assemble t indent ((0, false) :: rest)
      | (first, inWord) :: rest =>
        t.slice 0 first.toNat ++ Fold.assemble t indent ((first, inWord) :: rest)

end LintRepair.Yaml
