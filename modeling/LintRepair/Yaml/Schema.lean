import LintRepair.Text.Basic
import LintRepair.Yaml.Timestamp

/-!
# Schemas

What plain scalars stand for, and what the tags mean, by the two schemas that a document can choose: the core
schema, and the one of the version before, with more spellings of numbers and truth values and with merge keys.
-/
namespace LintRepair.Yaml

inductive Schema where
  | core
  /-- The schema of version 1.1. -/
  | elder
deriving DecidableEq, Repr, Inhabited

/-- How a number was written. -/
inductive NumberForm where
  /-- Decimal digits alone. -/
  | whole
  | radix (base : Nat) (mark : String)
  | exponent
  /-- A decimal with a point, to be written with at least so many places; or one that is not finite. -/
  | point (places : Nat)
  /-- Parts of sixty, with colons. -/
  | clock (pointed : Bool)
deriving DecidableEq, Repr, Inhabited

/-- What a scalar stands for. -/
inductive Datum where
  | null
  | bool (b : Bool)
  | number (n : Number) (form : NumberForm)
  | text
  | moment (t : Int)
  | bytes (bs : List Nat)
  /-- The key whose value is merged into the mapping. -/
  | merge
deriving DecidableEq, Repr, Inhabited

/-! ## Numbers -/

namespace NumberForm

/-- A sign, and what follows it. -/
def signOf : List Char → Int × List Char
  | '-' :: ds => (-1, ds)
  | '+' :: ds => (1, ds)
  | ds => (1, ds)

def isDigitOf (base : Nat) (c : Char) : Bool := (Number.digitValue? c).any (· < base)

/-- Digits, of which at least one is there. -/
def areDigits (base : Nat) (ds : List Char) : Bool := !ds.isEmpty && ds.all (isDigitOf base)

/-- Digits and underlines, of which at least one is there. -/
def areLooseDigits (base : Nat) (ds : List Char) : Bool :=
  !ds.isEmpty && ds.all fun c => isDigitOf base c || c = '_'

def plainDigits (ds : List Char) : List Char := ds.filter (· ≠ '_')

/-- Digits with underlines as a number; without a digit they are none. -/
def looseNumber (base : Nat) (sign : Int) (ds : List Char) : Number :=
  match Number.digits? base (plainDigits ds) with
  | some n => .ofInt (sign * n)
  | none => .nan

/-- A decimal that has been found to be one; without a digit it is none. -/
def decimal (cs : List Char) : Number :=
  let (sign, ds) := signOf cs
  match Number.unsigned? ds with
  | some (c, e) => .ofDecimal (sign * c) e
  | none => .nan

/-- The form of a decimal with a point: its places are kept if they end in a zero. -/
def pointForm (cs : List Char) : NumberForm :=
  let places := (cs.dropWhile (· ≠ '.')).drop 1
  .point (if places.getLast? = some '0' then places.length else 0)

/-- One of the values that are not finite. -/
def special? (cs : List Char) : Option Number :=
  match String.ofList cs with
  | ".inf" | ".Inf" | ".INF" | "+.inf" | "+.Inf" | "+.INF" => some .infinity
  | "-.inf" | "-.Inf" | "-.INF" => some .negInfinity
  | ".nan" | ".NaN" | ".NAN" => some .nan
  | _ => none

/-- The parts before and behind an exponent's letter, which is followed by digits. -/
def mantissa? (cs : List Char) : Option (List Char) :=
  let rest := cs.dropWhile fun c => c ≠ 'e' && c ≠ 'E'
  if areDigits 10 (signOf (rest.drop 1)).2 then some (cs.take (cs.length - rest.length)) else none

/-- A number of the core schema. -/
def core? (cs : List Char) : Option (Number × NumberForm) :=
  let (_, ds) := signOf cs
  let hasPoint := ds.contains '.'
  let whole := ds.takeWhile (· ≠ '.')
  let places := ds.drop (whole.length + 1)
  let pointed := hasPoint && (whole.isEmpty || areDigits 10 whole) && (places.isEmpty || areDigits 10 places)
    && !(whole.isEmpty && places.isEmpty)
  match cs with
  | '0' :: 'o' :: rest => if areDigits 8 rest then some (looseNumber 8 1 rest, .radix 8 "0o") else none
  | '0' :: 'x' :: rest => if areDigits 16 rest then some (looseNumber 16 1 rest, .radix 16 "0x") else none
  | _ =>
    if areDigits 10 ds then some (decimal cs, .whole)
    else match special? cs with
      | some n => some (n, .point 0)
      | none =>
        match mantissa? ds with
        | some m =>
          let whole := m.takeWhile (· ≠ '.')
          let places := m.drop (whole.length + 1)
          if (areDigits 10 whole || (whole.isEmpty && !places.isEmpty)) && places.all Char.isDigit then
            some (decimal cs, .exponent)
          else none
        | none => if pointed then some (decimal cs, pointForm cs) else none

/-- The parts of a number with colons. -/
def clockParts (ds : List Char) : List (List Char) := ds.splitOnP (· = ':')

/-- A part behind a colon is less than sixty. -/
def isClockPart (ds : List Char) : Bool :=
  areDigits 10 ds && (ds.length = 1 || (ds.length = 2 && ds.head?.any (· < '6')))

/-- The number that parts of sixty stand for. -/
def clockValue (sign : Int) (parts : List (List Char)) : Number :=
  let last := plainDigits (parts.getLast?.getD [])
  let whole := parts.dropLast.foldl (fun n p => 60 * n + (Number.digits? 10 (plainDigits p)).getD 0) 0
  let places := ((last.dropWhile (· ≠ '.')).drop 1).length
  let units := (Number.digits? 10 (last.filter (· ≠ '.'))).getD 0
  .ofDecimal (sign * (60 * whole * Number.tenTo places + units : Nat)) (-(places : Int))

/-- A number with colons. -/
def clock? (cs : List Char) : Option (Number × NumberForm) :=
  let (sign, ds) := signOf cs
  match clockParts ds with
  | first :: second :: rest =>
    let parts := second :: rest
    let last := parts.getLast?.getD []
    let point := last.dropWhile (· ≠ '.')
    let fits := areLooseDigits 10 first && first.head? ≠ some '_' && parts.dropLast.all isClockPart
      && isClockPart (last.takeWhile (· ≠ '.')) && (point.drop 1).all fun c => c.isDigit || c = '_'
    if fits then some (clockValue sign (first :: parts), .clock (!point.isEmpty)) else none
  | _ => none

/-- A number of the elder schema. -/
def elder? (cs : List Char) : Option (Number × NumberForm) :=
  let (sign, ds) := signOf cs
  let loose (ds : List Char) : Bool := ds.isEmpty || (areLooseDigits 10 ds && ds.head? ≠ some '_')
  let isDecimal (ds : List Char) : Bool :=
    loose (ds.takeWhile (· ≠ '.')) && ((ds.dropWhile (· ≠ '.')).drop 1).all fun c => c.isDigit || c = '_'
  match ds with
  | '0' :: 'b' :: rest =>
    if areLooseDigits 2 rest then some (looseNumber 2 sign rest, .radix 2 "0b") else none
  | '0' :: 'x' :: rest =>
    if areLooseDigits 16 rest then some (looseNumber 16 sign rest, .radix 16 "0x") else none
  | _ =>
    if ds.head? = some '0' && areLooseDigits 8 (ds.drop 1) then some (looseNumber 8 sign (ds.drop 1), .radix 8 "0")
    else if areLooseDigits 10 ds && ds.head? ≠ some '_' then some (looseNumber 10 sign ds, .whole)
    else match special? cs with
      | some n => some (n, .point 0)
      | none =>
        match mantissa? ds with
        | some m => if isDecimal m then some (decimal (plainDigits cs), .exponent) else none
        | none =>
          if ds.contains '.' && isDecimal ds then some (decimal (plainDigits cs), pointForm (plainDigits cs))
          else clock? cs

end NumberForm

/-! ## Plain scalars -/

namespace Schema

def numbers : Schema → List Char → Option (Number × NumberForm)
  | core => NumberForm.core?
  | elder => NumberForm.elder?

def isNull (s : String) : Bool := ["", "~", "null", "Null", "NULL"].contains s

/-- The spellings of a truth value. -/
def spellings : Schema → Bool → List String
  | core, true => ["true", "True", "TRUE"]
  | core, false => ["false", "False", "FALSE"]
  | elder, true => ["Y", "y", "Yes", "yes", "YES", "True", "true", "TRUE", "On", "on", "ON"]
  | elder, false => ["N", "n", "No", "no", "NO", "False", "false", "FALSE", "Off", "off", "OFF"]

/-- The datum of a plain scalar; only a key may be a merge key. -/
def plainDatum (schema : Schema) (asKey : Bool) (cs : List Char) : Datum :=
  let s := String.ofList cs
  if isNull s then .null
  else if (schema.spellings true).contains s then .bool true
  else if (schema.spellings false).contains s then .bool false
  else match schema.numbers cs with
    | some (n, form) => .number n form
    | none =>
      if schema = .core then .text
      else if asKey && s = "<<" then .merge
      else match Timestamp.read? cs with
        | some t => .moment t
        | none => .text

end Schema

/-! ## Tags -/

/-- The start of the names of the common tags. -/
def tagHome : String := "tag:yaml.org,2002:"

/-- The tag of a datum in the common home. -/
def Datum.tag : Datum → String
  | null => "null"
  | bool _ => "bool"
  | number _ form => match form with
    | .whole | .radix .. | .clock false => "int"
    | .exponent | .point _ | .clock true => "float"
  | text => "str"
  | moment _ => "timestamp"
  | bytes _ => "binary"
  | merge => "merge"

/-- The value of a digit of text that encodes bytes, six bits a digit. -/
def sixBits? (c : Char) : Option Nat :=
  if 'A' ≤ c ∧ c ≤ 'Z' then some (c.toNat - 'A'.toNat)
  else if 'a' ≤ c ∧ c ≤ 'z' then some (c.toNat - 'a'.toNat + 26)
  else if '0' ≤ c ∧ c ≤ '9' then some (c.toNat - '0'.toNat + 52)
  else if c = '+' ∨ c = '-' then some 62
  else if c = '/' ∨ c = '_' then some 63
  else none

/-- The bytes of digits of six bits; what is left over is lost. -/
def joinBits : List Nat → List Nat
  | a :: b :: c :: d :: rest => (4 * a + b / 16) :: (16 * (b % 16) + c / 4) :: (64 * (c % 4) + d) :: joinBits rest
  | [a, b, c] => [4 * a + b / 16, 16 * (b % 16) + c / 4]
  | [a, b] => [4 * a + b / 16]
  | _ => []

/-- The bytes that a text encodes; it ends with the first equals sign, and other signs count for nothing. -/
def bytesOf (cs : List Char) : List Nat := joinBits ((cs.takeWhile (· ≠ '=')).filterMap sixBits?)

/-- The datum of a scalar with a tag of the given name, or what is wrong with the scalar. A tag that does not
fit leaves a text. -/
def Schema.taggedDatum (schema : Schema) (tag : String) (cs : List Char) : Except String Datum :=
  let named (name : String) : Bool := tag = tagHome ++ name
  let plain := schema.plainDatum false cs
  if named "binary" then .ok (.bytes (bytesOf cs))
  else if named "timestamp" && schema = .core then
    match Timestamp.read? cs with
    | some t => .ok (.moment t)
    | none => .error "!!timestamp expects a date, starting with yyyy-mm-dd"
  else if named "merge" then .ok (if schema = .core || cs = ['<', '<'] then .merge else .text)
  else .ok (if named plain.tag then plain else .text)

end LintRepair.Yaml
