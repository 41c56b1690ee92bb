/-!
# Numbers of documents

A number is an exact decimal or one of the three values that are not finite. Numbers are stored with
binary precision: `Number.ofDecimal` rounds to 53 significant bits, ties to even, and keeps the
fewest decimal digits that read back as the rounded value.
-/
namespace LintRepair

/-- `decimal c e` is `c · 10 ^ e`, where `c` does not end in a zero unless it is zero. -/
inductive Number where
  | decimal (coefficient : Int) (exponent : Int)
  | infinity
  | negInfinity
  | nan
deriving DecidableEq, Repr, Inhabited

namespace Number

/-- A power of two. -/
def twoTo (n : Nat) : Nat := Nat.pow 2 n

/-- A power of ten. -/
def tenTo (n : Nat) : Nat := Nat.pow 10 n

/-- The number of binary digits. -/
def bitLength (n : Nat) : Nat := if n = 0 then 0 else n.log2 + 1

/-- The quotient rounded to the nearest natural number, a tie to the even one. -/
def roundDiv (num den : Nat) : Nat :=
  let q := num / den
  let r := num % den
  if 2 * r < den then q
  else if den < 2 * r then q + 1
  else if q % 2 = 0 then q else q + 1

/-- The nearest `m · 2 ^ q` with `m < 2 ^ 53` and `-1074 ≤ q`, as the pair of `m` and `q`. -/
def nearestBinary (num den : Nat) : Nat × Int :=
  let guess : Int := bitLength num - bitLength den - 53
  let scaled (q : Int) : Nat :=
    if 0 ≤ q then roundDiv num (den * twoTo q.toNat) else roundDiv (num * twoTo (-q).toNat) den
  let q := max guess (-1074)
  let m := scaled q
  if m < twoTo 53 then (m, q)
  else
    let m := scaled (q + 1)
    if m < twoTo 53 then (m, q + 1) else (m / 2, q + 2)

/-- `c · 10 ^ e · 2 ^ s` as a fraction. -/
def fraction (c : Nat) (e : Int) (s : Int) : Nat × Nat :=
  let (num, den) := if 0 ≤ e then (c * tenTo e.toNat, 1) else (c, tenTo (-e).toNat)
  if 0 ≤ s then (num * twoTo s.toNat, den) else (num, den * twoTo (-s).toNat)

/-- Whether one fraction is below (or, when `closed`, equal to) another. -/
def below (closed : Bool) (a b : Nat × Nat) : Bool :=
  if closed then a.1 * b.2 ≤ b.1 * a.2 else a.1 * b.2 < b.1 * a.2

/-- The number of decimal digits. -/
def digitCount (n : Nat) : Nat := (Nat.toDigits 10 n).length

/-- A decimal without trailing zeros in its coefficient. -/
def trimZeros : Nat → Nat → Int → Nat × Int
  | 0, c, e => (c, e)
  | n + 1, c, e => if c ≠ 0 && c % 10 = 0 then trimZeros n (c / 10) (e + 1) else (c, e)

/-- The decimals with `digits` digits next to `m · 2 ^ q`, if one of them reads back as it. -/
def candidate? (m : Nat) (q : Int) (top : Int) (digits : Nat) : Option (Nat × Int) :=
  let e := top - digits
  let low := if m = twoTo 52 && (-1074 < q) then fraction (4 * m - 1) 0 (q - 2) else fraction (2 * m - 1) 0 (q - 1)
  let high := fraction (2 * m + 1) 0 (q - 1)
  let value := fraction m 0 q
  let unitScaled := fraction m (-e) q
  let floor := unitScaled.1 / unitScaled.2
  let closed := m % 2 = 0
  let inside (c : Nat) : Bool := below closed low (fraction c e 0) && below closed (fraction c e 0) high
  let nearerUp : Bool :=
    let twice := (2 * value.1, value.2)
    let sum := fraction (2 * floor + 1) e 0
    below false sum twice || (sum.1 * twice.2 = twice.1 * sum.2 && floor % 2 = 1)
  match inside floor && floor ≠ 0, inside (floor + 1) with
  | true, true => some (if nearerUp then floor + 1 else floor, e)
  | true, false => some (floor, e)
  | false, true => some (floor + 1, e)
  | false, false => none

/-- The shortest decimal that reads back as `m · 2 ^ q`. -/
def shortest (m : Nat) (q : Int) : Nat × Int :=
  let whole := fraction m 0 q
  let top : Int :=
    if whole.2 ≤ whole.1 then digitCount (whole.1 / whole.2)
    else 1 - digitCount (whole.2 / whole.1)
  match (List.range 18).findSome? fun d => candidate? m q top (d + 1) with
  | some (c, e) => trimZeros 400 c e
  | none => (m, 0)

/-- The number nearest to `coefficient · 10 ^ exponent`. -/
def ofDecimal (coefficient : Int) (exponent : Int) : Number :=
  let c := coefficient.natAbs
  if c = 0 then decimal 0 0
  else if 310 < exponent + digitCount c then (if coefficient < 0 then negInfinity else infinity)
  else if exponent + digitCount c < -330 then decimal 0 0
  else
    if c < tenTo 15 && -22 ≤ exponent && exponent ≤ 22 then signed coefficient (trimZeros 400 c exponent)
    else
      let ratio := fraction c exponent 0
      let (m, q) := nearestBinary ratio.1 ratio.2
      if m = 0 then decimal 0 0
      else if 971 < q then (if coefficient < 0 then negInfinity else infinity)
      else signed coefficient (shortest m q)
where
  signed (coefficient : Int) (ce : Nat × Int) : Number :=
    decimal (if coefficient < 0 then -ce.1 else ce.1) ce.2

def ofInt (n : Int) : Number := ofDecimal n 0

def ofNat (n : Nat) : Number := ofDecimal n 0

/-- The value of a number that is a whole number. -/
def toInt? : Number → Option Int
  | decimal c e => if 0 ≤ e then some (c * (tenTo e.toNat : Nat)) else if c = 0 then some 0 else none
  | _ => none

/-- Digits `ds` with the point after the first `n` of them; exponents below -7 and above 20 are
written out. -/
def layout (ds : List Char) (n : Int) : String :=
  let k : Int := ds.length
  let text :=
    if k ≤ n ∧ n ≤ 21 then ds ++ List.replicate (n - k).toNat '0'
    else if 0 < n ∧ n ≤ 21 then ds.take n.toNat ++ '.' :: ds.drop n.toNat
    else if -6 < n ∧ n ≤ 0 then '0' :: '.' :: (List.replicate (-n).toNat '0' ++ ds)
    else
      let e := n - 1
      let sign := if e < 0 then '-' else '+'
      let mantissa := match ds with
        | [] => []
        | [d] => [d]
        | d :: rest => d :: '.' :: rest
      mantissa ++ 'e' :: sign :: Nat.toDigits 10 e.natAbs
  String.ofList text

/-- The text of a number: positional up to 21 digits, then with an exponent. -/
def text : Number → String
  | decimal c e =>
    if c = 0 then "0"
    else
      let ds := Nat.toDigits 10 c.natAbs
      let body := layout ds (ds.length + e)
      if c < 0 then "-" ++ body else body
  | infinity => "Infinity"
  | negInfinity => "-Infinity"
  | nan => "NaN"

end Number
end LintRepair
