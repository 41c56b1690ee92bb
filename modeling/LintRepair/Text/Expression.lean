import LintRepair.Text.Basic

/-!
# Regular expressions

An expression describes pieces of a text. From a place in a text it reaches the places at which such a piece can
end; what groups have taken on the way is kept, as later parts may ask for the same again.
-/
namespace LintRepair

/-- A set of units given by ranges, or all units outside of them. -/
structure UnitSet where
  ranges : List (Nat × Nat) := []
  inverted : Bool := false
deriving DecidableEq, Repr, Inhabited

namespace UnitSet

def all : UnitSet := ⟨[], true⟩

def just (u : Nat) : UnitSet := ⟨[(u, u)], false⟩

def contains (s : UnitSet) (u : Nat) : Bool :=
  (s.ranges.any fun (low, high) => low ≤ u && u ≤ high) != s.inverted

theorem contains_just (u v : Nat) : (just u).contains v = decide (u = v) := by
  simp only [just, contains, List.any_cons, List.any_nil, Bool.or_false, Bool.bne_false]
  by_cases h : u = v
  · simp [h]
  · simp [h]
    omega

/-- The units outside of ranges that are in order. -/
def outside (low : Nat) : List (Nat × Nat) → List (Nat × Nat)
  | [] => [(low, 0xFFFF)]
  | (a, b) :: rest => (if low < a then [(low, a - 1)] else []) ++ outside (b + 1) rest

def digits : UnitSet := ⟨[(0x30, 0x39)], false⟩

def wordUnits : UnitSet := ⟨[(0x30, 0x39), (0x41, 0x5A), (0x5F, 0x5F), (0x61, 0x7A)], false⟩

def blanks : UnitSet :=
  ⟨[(0x09, 0x0D), (0x20, 0x20), (0xA0, 0xA0), (0x1680, 0x1680), (0x2000, 0x200A), (0x2028, 0x2029),
    (0x202F, 0x202F), (0x205F, 0x205F), (0x3000, 0x3000), (0xFEFF, 0xFEFF)], false⟩

/-- All but the ends of lines. -/
def inLine : UnitSet := ⟨[(0x0A, 0x0A), (0x0D, 0x0D), (0x2028, 0x2029)], true⟩

end UnitSet

inductive Expression where
  | nothing
  | unit (among : UnitSet)
  | seq (first second : Expression)
  | either (left right : Expression)
  /-- At least so many times, and at most so many if a number is given. -/
  | repeated (least : Nat) (most : Option Nat) (piece : Expression)
  | group (number : Nat) (inner : Expression)
  /-- What a group has taken. -/
  | again (number : Nat)
  | atStart
  | atEnd
  /-- Between a unit of a word and another one, or not there. -/
  | atEdge (wanted : Bool)
  /-- In front of a piece, or not there. -/
  | before (wanted : Bool) (piece : Expression)
  /-- Behind a piece, or not there. -/
  | behind (wanted : Bool) (piece : Expression)
deriving Repr, Inhabited

namespace Expression

/-- A place in a text, with what the groups have taken. -/
structure Reach where
  place : Nat
  groups : List (Nat × Nat × Nat) := []
deriving DecidableEq, Repr, Inhabited

/-- The numbers of the groups in an expression. -/
def numbers : Expression → List Nat
  | seq a b | either a b => a.numbers ++ b.numbers
  | repeated _ _ a | before _ a | behind _ a => a.numbers
  | group n a => n :: a.numbers
  | _ => []

namespace Reach

def hold (r : Reach) (number start : Nat) : Reach :=
  { r with groups := (number, start, r.place) :: r.groups.filter (·.1 ≠ number) }

def drop (r : Reach) (numbers : List Nat) : Reach :=
  { r with groups := r.groups.filter fun g => !numbers.contains g.1 }

end Reach

/-- Repeats a step that many times. -/
def times (step : Reach → List Reach) : Nat → List Reach → List Reach
  | 0, rs => rs
  | n + 1, rs => if rs.isEmpty then [] else times step n (rs.flatMap step).eraseDups

/-- Repeats a step as long as it gets on, at most `fuel` times, and keeps every place on the way. -/
def closure (step : Reach → List Reach) : Nat → List Reach → List Reach
  | 0, rs => rs
  | fuel + 1, rs =>
    if rs.isEmpty then []
    else
      (rs ++ closure step fuel
        (rs.flatMap fun r => (step r).filter fun next => r.place < next.place).eraseDups).eraseDups

def isWordAt (t : Array UInt16) (i : Nat) : Bool := (t[i]?).any fun u => UnitSet.wordUnits.contains u.toNat

/-- Where a piece of the text can end that starts at a place. -/
def reaches (t : Array UInt16) : Expression → Reach → List Reach
  | nothing, r => [r]
  | unit among, r =>
    if (t[r.place]?).any fun u => among.contains u.toNat then [{ r with place := r.place + 1 }] else []
  | seq a b, r => ((reaches t a r).flatMap (reaches t b)).eraseDups
  | either a b, r => (reaches t a r ++ reaches t b r).eraseDups
  | repeated least most a, r =>
    let step (r : Reach) : List Reach := reaches t a (r.drop a.numbers)
    let further := match most with
      | some most => min (most - least) t.size
      | none => t.size
    closure step further (times step least [r])
  | group n a, r => (reaches t a r).map (·.hold n r.place)
  | again n, r =>
    match r.groups.find? (·.1 = n) with
    | none => [r]
    | some (_, start, stop) =>
      if (t.extract start stop) = t.extract r.place (r.place + (stop - start)) then
        [{ r with place := r.place + (stop - start) }]
      else []
  | atStart, r => if r.place = 0 then [r] else []
  | atEnd, r => if r.place = t.size then [r] else []
  | atEdge wanted, r =>
    let edge := isWordAt t r.place != (0 < r.place && isWordAt t (r.place - 1))
    if edge = wanted then [r] else []
  | before wanted a, r =>
    let found := reaches t a r
    if wanted then found.map fun f => { f with place := r.place } else if found.isEmpty then [r] else []
  | behind wanted a, r =>
    let found := (List.range (r.place + 1)).flatMap fun i =>
      (reaches t a { r with place := i }).filter (·.place = r.place)
    if wanted then found else if found.isEmpty then [r] else []

/-- Whether a piece of the text is described. -/
def occursIn (e : Expression) (t : Text) : Bool :=
  let units := t.toArray
  (List.range (units.size + 1)).any fun i => !(reaches units e { place := i }).isEmpty

theorem reaches_nothing (t : Array UInt16) (r : Reach) : reaches t nothing r = [r] := rfl

theorem reaches_group (t : Array UInt16) (n : Nat) (e : Expression) (r : Reach) :
    reaches t (group n e) r = (reaches t e r).map (·.hold n r.place) := rfl

end Expression
end LintRepair
