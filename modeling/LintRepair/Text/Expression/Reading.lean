import LintRepair.Text.Expression

/-!
# Reading regular expressions

How expressions are spelled: alternatives between bars, terms one behind the other, each with a sign for how
often it may come. Signs that spell nothing else where they stand are taken as themselves.
-/
namespace LintRepair.Expression

/-- What is left to be read, and what is known of the whole. -/
structure Source where
  rest : Text
  /-- The number of groups that have been opened. -/
  opened : Nat := 0
  /-- The number of groups in the whole. -/
  total : Nat := 0
  /-- Groups have names. -/
  named : Bool := false
deriving Inhabited

abbrev Reader := StateT Source Option

namespace Reader

def u (c : Char) : UInt16 := Text.unit c

def rest : Reader Text := return (← get).rest

def skip (n : Nat) : Reader Unit := modify fun s => { s with rest := s.rest.drop n }

/-- The signs that come next. -/
def next (n : Nat := 1) : Reader String := return String.ofList (((← rest).take n).map fun v => Char.ofNat v.toNat)

/-! ## Numbers -/

def isDigitUnit (v : UInt16) : Bool := u '0' ≤ v && v ≤ u '9'

def hexValue? (v : UInt16) : Option Nat :=
  if isDigitUnit v then some (v - u '0').toNat
  else if u 'a' ≤ v && v ≤ u 'f' then some (v - u 'a' + 10).toNat
  else if u 'A' ≤ v && v ≤ u 'F' then some (v - u 'A' + 10).toNat
  else none

/-- The number that digits spell. -/
def valueOf (base : Nat) (ds : Text) : Nat := ds.foldl (fun n d => base * n + (hexValue? d).getD 0) 0

/-- The number that so many hexadecimal digits spell, if they come next. -/
def hexDigits? (n : Nat) (t : Text) : Option Nat :=
  let ds := t.take n
  if ds.length = n && ds.all fun d => (hexValue? d).isSome then some (valueOf 16 ds) else none

/-- The unit that octal digits spell, up to three of them, and how many they are. -/
def octal (t : Text) : Nat × Nat :=
  let ds := (t.take 3).takeWhile fun d => u '0' ≤ d && d ≤ u '7'
  let ds := if 0xFF < valueOf 8 ds then ds.take 2 else ds
  (valueOf 8 ds, ds.length)

/-- How often a term may come, if signs for that come next. -/
def count? (t : Text) : Option (Nat × Option Nat × Nat) :=
  match t with
  | c :: more =>
    if c = u '*' then some (0, none, 1)
    else if c = u '+' then some (1, none, 1)
    else if c = u '?' then some (0, some 1, 1)
    else if c = u '\x7b' then
      let low := more.takeWhile isDigitUnit
      let behind := more.drop low.length
      if low.isEmpty then none
      else if behind.head? = some (u '\x7d') then
        some (valueOf 10 low, some (valueOf 10 low), low.length + 2)
      else if behind.head? = some (u ',') then
        let high := (behind.drop 1).takeWhile isDigitUnit
        if (behind.drop (1 + high.length)).head? = some (u '\x7d') then
          some (valueOf 10 low, if high.isEmpty then none else some (valueOf 10 high),
            low.length + high.length + 3)
        else none
      else none
    else none
  | [] => none

/-! ## Escapes -/

/-- The set that a letter behind a backslash stands for. -/
def classOf? (v : UInt16) : Option UnitSet :=
  let inverse (s : UnitSet) : UnitSet := { s with inverted := true }
  if v = u 'd' then some .digits
  else if v = u 'D' then some (inverse .digits)
  else if v = u 'w' then some .wordUnits
  else if v = u 'W' then some (inverse .wordUnits)
  else if v = u 's' then some .blanks
  else if v = u 'S' then some (inverse .blanks)
  else none

/-- The unit that an escape stands for, read from behind the backslash, and its length. -/
def escapedUnit (t : Text) : Nat × Nat :=
  match t with
  | [] => (0, 0)
  | c :: more =>
    if c = u 'f' then (0x0C, 1)
    else if c = u 'n' then (0x0A, 1)
    else if c = u 'r' then (0x0D, 1)
    else if c = u 't' then (0x09, 1)
    else if c = u 'v' then (0x0B, 1)
    else if c = u 'x' then
      match hexDigits? 2 more with
      | some n => (n, 3)
      | none => (c.toNat, 1)
    else if c = u 'u' then
      match hexDigits? 4 more with
      | some n => (n, 5)
      | none => (c.toNat, 1)
    else if u '0' ≤ c && c ≤ u '7' then octal t
    else (c.toNat, 1)

/-- The letter of a control escape, if there is one. -/
def controlUnit? (wide : Bool) (t : Text) : Option Nat :=
  match t with
  | c :: v :: _ =>
    let isLetter := (u 'a' ≤ v && v ≤ u 'z') || (u 'A' ≤ v && v ≤ u 'Z')
    let isOther := wide && (isDigitUnit v || v = u '_')
    if c = u 'c' && (isLetter || isOther) then some (v.toNat % 32) else none
  | _ => none

/-! ## Sets in brackets -/

/-- A member of a set: a unit, or several of them. -/
inductive Member where
  | one (n : Nat)
  | several (s : UnitSet)

def Member.ranges : Member → List (Nat × Nat)
  | one n => [(n, n)]
  | several s => if s.inverted then UnitSet.outside 0 s.ranges else s.ranges

/-- The next member of a set. -/
def member : Reader Member := do
  match ← rest with
  | [] => failure
  | c :: more =>
    if c ≠ u '\\' then
      skip 1
      return .one c.toNat
    match more with
    | [] => failure
    | e :: _ =>
      if e = u 'b' then
        skip 2
        return .one 0x08
      if let some s := classOf? e then
        skip 2
        return .several s
      if let some n := controlUnit? true more then
        skip 3
        return .one n
      if e = u 'c' then
        skip 1
        return .one c.toNat
      if e = u 'k' && (← get).named then failure
      let (n, length) := escapedUnit more
      skip (1 + length)
      return .one n

/-- The members of a set up to its closing bracket. -/
def members : Nat → List (Nat × Nat) → Reader (List (Nat × Nat))
  | 0, _ => failure
  | fuel + 1, ranges => do
    match ← rest with
    | [] => failure
    | c :: _ =>
      if c = u ']' then
        skip 1
        return ranges
      let low ← member
      match ← rest with
      | dash :: close :: _ =>
        if dash = u '-' && close ≠ u ']' then
          skip 1
          let high ← member
          match low, high with
          | .one a, .one b => if a ≤ b then members fuel (ranges ++ [(a, b)]) else failure
          | _, _ => members fuel (ranges ++ low.ranges ++ [(dash.toNat, dash.toNat)] ++ high.ranges)
        else members fuel (ranges ++ low.ranges)
      | _ => members fuel (ranges ++ low.ranges)

/-- A set, from behind its opening bracket. -/
def set_ : Reader Expression := do
  let inverted := (← rest).head? = some (u '^')
  if inverted then skip 1
  let ranges ← members ((← rest).length + 1) []
  return .unit ⟨ranges, inverted⟩

/-! ## Terms -/

/-- What a backslash begins, from behind it. -/
def escape : Reader Expression := do
  match ← rest with
  | [] => failure
  | c :: more =>
    if c = u 'b' || c = u 'B' then
      skip 1
      return .atEdge (c = u 'b')
    if let some s := classOf? c then
      skip 1
      return .unit s
    if let some n := controlUnit? false (c :: more) then
      skip 2
      return .unit (.just n)
    if c = u 'c' then return .unit (.just (u '\\').toNat)
    if u '1' ≤ c && c ≤ u '9' then
      let ds := (c :: more).takeWhile isDigitUnit
      if valueOf 10 ds ≤ (← get).total then
        skip ds.length
        return .again (valueOf 10 ds)
    if c = u 'k' && (← get).named then failure
    let (n, length) := escapedUnit (c :: more)
    skip length
    return .unit (.just n)

/-- A name between angle brackets. -/
def groupName : Reader Unit := do
  let t ← rest
  let name := t.takeWhile fun v => UnitSet.wordUnits.contains v.toNat || v = u '$'
  if name.isEmpty || isDigitUnit (name.headD 0) || (t.drop name.length).head? ≠ some (u '>') then failure
  skip (name.length + 1)

/-- A closing parenthesis. -/
def close : Reader Unit := do
  if (← rest).head? ≠ some (u ')') then failure
  skip 1

/-- What a parenthesis begins, from behind it. -/
def group_ (inner : Reader Expression) : Reader Expression := do
  let finish (make : Expression → Expression) : Reader Expression := do
    let e ← inner
    close
    return make e
  let numbered : Reader Expression := do
    let number := (← get).opened + 1
    modify fun s => { s with opened := number }
    finish (.group number)
  if (← next) ≠ "?" then numbered
  else
    let two ← next 2
    let three ← next 3
    if two = "?:" then
      skip 2
      finish id
    else if two = "?=" || two = "?!" then
      skip 2
      finish (.before (two = "?="))
    else if three = "?<=" || three = "?<!" then
      skip 3
      finish (.behind (three = "?<="))
    else if two = "?<" then
      skip 2
      groupName
      numbered
    else failure

/-- A sign for how often a term may come, and the question mark that may follow it. -/
def counted (e : Expression) : Reader Expression := do
  match count? (← rest) with
  | none => return e
  | some (least, most, length) =>
    if most.any (· < least) then failure
    skip length
    if (← next) = "?" then skip 1
    return .repeated least most e

/-- A term with its sign for how often it may come. -/
def term (inner : Reader Expression) : Reader Expression := do
  match ← rest with
  | [] => failure
  | c :: more =>
    if (count? (c :: more)).isSome then failure
    skip 1
    if c = u '^' then return .atStart
    else if c = u '$' then return .atEnd
    else if c = u '(' then
      let e ← group_ inner
      match e with
      | .behind .. => return e
      | _ => counted e
    else if c = u '.' then counted (.unit .inLine)
    else if c = u '[' then counted (← set_)
    else if c = u '\\' then
      let e ← escape
      match e with
      | .atEdge _ => return e
      | _ => counted e
    else counted (.unit (.just c.toNat))

/-- Terms up to a bar or a closing parenthesis. -/
def terms (inner : Reader Expression) : Nat → Reader Expression
  | 0 => return .nothing
  | fuel + 1 => do
    match ← rest with
    | [] => return .nothing
    | c :: _ =>
      if c = u '|' || c = u ')' then return .nothing
      let first ← term inner
      return .seq first (← terms inner fuel)

/-- Alternatives between bars. -/
def alternatives (inner : Reader Expression) : Nat → Reader Expression
  | 0 => failure
  | fuel + 1 => do
    let first ← terms inner ((← rest).length + 1)
    if (← next) = "|" then
      skip 1
      return .either first (← alternatives inner fuel)
    return first

/-- An expression with groups at most so deep. -/
def expression : Nat → Reader Expression
  | 0 => failure
  | depth + 1 => do alternatives (expression depth) ((← rest).length + 1)

/-- The groups in a text, and whether one has a name. -/
def countGroups : Nat → Bool → Text → Nat × Bool
  | 0, _, _ => (0, false)
  | _, _, [] => (0, false)
  | fuel + 1, inSet, c :: more =>
    if c = u '\\' then countGroups fuel inSet (more.drop 1)
    else if inSet then countGroups fuel (c ≠ u ']') more
    else if c = u '[' then countGroups fuel true more
    else if c ≠ u '(' then countGroups fuel false more
    else
      let (n, named) := countGroups fuel false more
      let isNamed := more.take 2 = [u '?', u '<'] && more[2]? ≠ some (u '=') && more[2]? ≠ some (u '!')
      if isNamed then (n + 1, true)
      else if more.head? = some (u '?') then (n, named)
      else (n + 1, named)

end Reader

/-- The expression that a text spells, if it spells one. -/
def read? (t : Text) : Option Expression :=
  let (total, named) := Reader.countGroups (t.length + 1) false t
  match (Reader.expression (t.length + 1)).run { rest := t, total, named } with
  | some (e, s) => if s.rest.isEmpty then some e else none
  | none => none

example : ((read? (Text.ofString "a(b|c)*\\.ts")).map fun e => e.occursIn (Text.ofString "abcb.ts")) = some true := by
  decide +kernel

end LintRepair.Expression
