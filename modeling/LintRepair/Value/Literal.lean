import LintRepair.Text.Blank
import LintRepair.Value.Number

/-!
# Numbers written as text

Command-line numbers: decimal with an optional sign, point and exponent, or hexadecimal, octal and
binary without a sign. Blanks around are ignored, and nothing at all stands for zero.
-/
namespace LintRepair.Number

def digitValue? (c : Char) : Option Nat :=
  if '0' ≤ c ∧ c ≤ '9' then some (c.toNat - '0'.toNat)
  else if 'a' ≤ c ∧ c ≤ 'f' then some (c.toNat - 'a'.toNat + 10)
  else if 'A' ≤ c ∧ c ≤ 'F' then some (c.toNat - 'A'.toNat + 10)
  else none

/-- The value of digits in a base, at least one of them. -/
def digits? (base : Nat) (cs : List Char) : Option Nat :=
  if cs.isEmpty then none
  else cs.foldl (fun n c => do
    let n ← n
    let d ← digitValue? c
    if d < base then some (base * n + d) else none) (some 0)

/-- An exponent: a sign, maybe, and digits. -/
def exponent? : List Char → Option Int
  | '-' :: ds => (digits? 10 ds).map fun n => -(n : Int)
  | '+' :: ds => (digits? 10 ds).map Int.ofNat
  | ds => (digits? 10 ds).map Int.ofNat

/-- A decimal without a sign: digits with an optional point among them and an optional exponent. -/
def unsigned? (cs : List Char) : Option (Nat × Int) := do
  let whole := cs.takeWhile Char.isDigit
  let rest := cs.dropWhile Char.isDigit
  let (places, rest) := match rest with
    | '.' :: more => (more.takeWhile Char.isDigit, more.dropWhile Char.isDigit)
    | more => ([], more)
  let coefficient ← digits? 10 (whole ++ places)
  let e ← match rest with
    | [] => some 0
    | 'e' :: more | 'E' :: more => exponent? more
    | _ => none
  return (coefficient, e - places.length)

/-- The number that a text stands for. -/
def ofChars? (cs : List Char) : Option Number :=
  match cs with
  | [] => some (.decimal 0 0)
  | '0' :: 'x' :: ds | '0' :: 'X' :: ds => (digits? 16 ds).map .ofNat
  | '0' :: 'o' :: ds | '0' :: 'O' :: ds => (digits? 8 ds).map .ofNat
  | '0' :: 'b' :: ds | '0' :: 'B' :: ds => (digits? 2 ds).map .ofNat
  | '-' :: ds =>
    if ds = "Infinity".toList then some .negInfinity
    else (unsigned? ds).map fun (c, e) => ofDecimal (-(c : Int)) e
  | '+' :: ds =>
    if ds = "Infinity".toList then some .infinity else (unsigned? ds).map fun (c, e) => ofDecimal c e
  | ds => if ds = "Infinity".toList then some .infinity else (unsigned? ds).map fun (c, e) => ofDecimal c e

def ofText? (s : String) : Option Number := ofChars? (Text.trim (Text.ofString s)).toChars

end LintRepair.Number
