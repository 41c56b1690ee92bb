import LintRepair.Value.Literal

/-!
# Timestamps

Moments are counted in milliseconds from the start of 1970, without leap seconds, in the calendar that has a
leap year every fourth year except three of four centuries.
-/
namespace LintRepair.Yaml

namespace Timestamp

/-- The days up to a date; months and days may be beyond their ends, and months count from one. -/
def daysTo (year month day : Int) : Int :=
  let year := year + Int.fdiv (month - 1) 12
  let month := Int.fmod (month - 1) 12 + 1
  -- years begin with March, so that a leap day ends one
  let y := if month ≤ 2 then year - 1 else year
  let m := Int.fmod (month + 9) 12
  365 * y + Int.fdiv y 4 - Int.fdiv y 100 + Int.fdiv y 400 + Int.fdiv (153 * m + 2) 5 + day - 1 - 719468

/-- The year, month and day of a number of days. -/
def dateOf (days : Int) : Int × Int × Int :=
  let z := days + 719468
  let era := Int.fdiv z 146097
  let inEra := z - 146097 * era
  let y := Int.fdiv (inEra - Int.fdiv inEra 1460 + Int.fdiv inEra 36524 - Int.fdiv inEra 146096) 365
  let inYear := inEra - (365 * y + Int.fdiv y 4 - Int.fdiv y 100)
  let m := Int.fdiv (5 * inYear + 2) 153
  let month := if m < 10 then m + 3 else m - 9
  (y + 400 * era + (if month ≤ 2 then 1 else 0), month, inYear - Int.fdiv (153 * m + 2) 5 + 1)

def dayLength : Int := 86400000

/-- Digits padded with zeros. -/
def padded (width : Nat) (n : Int) : String :=
  let ds := Nat.toDigits 10 n.natAbs
  String.ofList (List.replicate (width - ds.length) '0' ++ ds)

/-- The hours, minutes, seconds and milliseconds of a moment. -/
def clockOf (t : Int) : Int × Int × Int × Int :=
  let rest := Int.fmod t dayLength
  (rest / 3600000, rest / 60000 % 60, rest / 1000 % 60, rest % 1000)

/-- The text of a moment: `2001-12-14T21:59:43.100Z`. -/
def text (t : Int) : String :=
  let (year, month, day) := dateOf (Int.fdiv t dayLength)
  let (hour, minute, second, milli) := clockOf t
  let years := if 0 ≤ year && year ≤ 9999 then padded 4 year else (if year < 0 then "-" else "+") ++ padded 6 year
  years ++ "-" ++ padded 2 month ++ "-" ++ padded 2 day ++ "T" ++ padded 2 hour ++ ":" ++ padded 2 minute ++ ":"
    ++ padded 2 second ++ "." ++ padded 3 milli ++ "Z"

/-- The text of a moment without a clock time of zero, or at least without milliseconds of zero. -/
def shortText (t : Int) : String :=
  let whole := (text t).toList
  let drop (n : Nat) : String := String.ofList (whole.take (whole.length - n))
  if Int.fmod t dayLength = 0 then drop 14
  else if Int.fmod t 1000 = 0 then drop 5
  else text t

def dayNames : List String := ["Thu", "Fri", "Sat", "Sun", "Mon", "Tue", "Wed"]

def monthNames : List String :=
  ["Jan", "Feb", "Mar", "Apr", "May", "Jun", "Jul", "Aug", "Sep", "Oct", "Nov", "Dec"]

/-- The text of a moment in words: `Fri Dec 14 2001 21:59:43 GMT+0000 (Coordinated Universal Time)`. -/
def longText (t : Int) : String :=
  let days := Int.fdiv t dayLength
  let (year, month, day) := dateOf days
  let (hour, minute, second, _) := clockOf t
  dayNames.getD (Int.fmod days 7).toNat "" ++ " " ++ monthNames.getD (month - 1).toNat "" ++ " " ++ padded 2 day
    ++ " " ++ padded 4 year ++ " " ++ padded 2 hour ++ ":" ++ padded 2 minute ++ ":" ++ padded 2 second
    ++ " GMT+0000 (Coordinated Universal Time)"

/-! ## Reading -/

/-- A number of `least` to `most` digits, and what follows it. -/
def digits? (least most : Nat) (cs : List Char) : Option (Nat × List Char) :=
  let ds := (cs.take most).takeWhile Char.isDigit
  if ds.length < least then none else (Number.digits? 10 ds).map (·, cs.drop ds.length)

/-- A given character, and what follows it. -/
def skip? (c : Char) : List Char → Option (List Char)
  | d :: rest => if c = d then some rest else none
  | [] => none

def skipBlanks (cs : List Char) : List Char := cs.dropWhile fun c => c = ' ' || c = '\t'

/-- The milliseconds of the digits behind a point. -/
def fraction? : List Char → Option (Nat × List Char)
  | '.' :: rest =>
    let ds := rest.takeWhile Char.isDigit
    if ds.isEmpty then none
    else (Number.digits? 10 ((ds ++ ['0', '0']).take 3)).map (·, rest.drop ds.length)
  | rest => some (0, rest)

/-- A clock time and the milliseconds up to it. -/
def clock? (cs : List Char) : Option (Int × List Char) := do
  let (hour, cs) ← digits? 1 2 cs
  let (minute, cs) ← digits? 1 2 (← skip? ':' cs)
  let (second, cs) ← digits? 1 2 (← skip? ':' cs)
  let (milli, cs) ← fraction? cs
  return (((hour * 60 + minute) * 60 + second) * 1000 + milli, cs)

/-- The minutes by which a time zone is ahead: a number below thirty are hours. -/
def zone? : List Char → Option Int
  | [] | ['Z'] => some 0
  | sign :: cs => do
    let factor : Int ← if sign = '+' then some 1 else if sign = '-' then some (-1) else none
    let (hour, rest) ← digits? 1 2 cs
    if cs.length - rest.length = 2 && 30 ≤ hour then none
    else match rest with
      | [] => return factor * (if hour < 30 then 60 * hour else hour)
      | ':' :: rest =>
        let (minute, rest) ← digits? 2 2 rest
        let all : Int := 60 * hour + minute
        if rest.isEmpty then return factor * (if all < 30 then 60 * all else all) else none
      | _ => none

/-- The moment that a text names. Years before the hundredth belong to the last century. -/
def read? (cs : List Char) : Option Int := do
  let (year, cs) ← digits? 4 4 cs
  let (month, cs) ← digits? 1 2 (← skip? '-' cs)
  let (day, cs) ← digits? 1 2 (← skip? '-' cs)
  let year := if year < 100 then 1900 + year else year
  let date := dayLength * daysTo year month day
  match cs with
  | [] => return date
  | c :: rest =>
    let time ← if c = 't' || c = 'T' then some rest
      else if c = ' ' || c = '\t' then some (skipBlanks rest)
      else none
    let (clock, rest) ← clock? time
    let (zone, blanks) := (skipBlanks rest, rest.length - (skipBlanks rest).length)
    if zone.isEmpty && 0 < blanks then none
    return date + clock - 60000 * (← zone? zone)

end Timestamp
end LintRepair.Yaml
