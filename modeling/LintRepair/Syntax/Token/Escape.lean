import LintRepair.Syntax.Token

/-!
# Escapes

Escape sequences of strings, templates and names.
-/
namespace LintRepair.Syntax.Source

/-- The hexadecimal digits from `i` on. -/
def hexEnd (s : Source) (i : Nat) : Nat := s.skipWhile (fun c => (hexDigit? c).isSome) i

/-- The number that the hexadecimal digits between two offsets write. -/
def hexValue (s : Source) (start stop : Nat) : Nat :=
  (s.slice start stop).foldl (fun n u => n * 16 + (hexDigit? u.toNat).getD 0) 0

/-- The code point of an escape with four digits whose backslash stands at `i`. -/
def plainEscape? (s : Source) (i : Nat) : Option Nat :=
  if i + 5 < s.size && s.has (i + 1) 'u' && s.hexEnd (i + 2) ≥ i + 6 then
    some (s.hexValue (i + 2) (i + 6))
  else none

/-- The code point of an escape with digits in braces whose backslash stands at `i`. -/
def bracedEscape? (s : Source) (i : Nat) : Option Nat :=
  if s.has (i + 1) 'u' && s.has (i + 2) '\x7b' && s.hexEnd (i + 3) > i + 3 then
    some (s.hexValue (i + 3) (s.hexEnd (i + 3)))
  else none

/-- Text of a code point. -/
def encode (c : Nat) : Text :=
  if c < 0x10000 then [c.toUInt16]
  else [(0xD800 + (c - 0x10000) / 0x400).toUInt16, (0xDC00 + (c - 0x10000) % 0x400).toUInt16]

/-- Reads an escape with digits in braces whose backslash stands at `i`. -/
def bracedEscape (s : Source) (report : Bool) (i : Nat) : Lexeme :=
  let digits := i + 3
  let stop := s.hexEnd digits
  let value := s.hexValue digits stop
  let none_ : List Complaint := if stop = digits then [.of stop .hexDigitExpected] else []
  let large : List Complaint :=
    if stop > digits && value > 0x10FFFF then [.of digits .escapeOutOfRange] else []
  let (last, open_) : Nat × List Complaint :=
    if s.size ≤ stop then (stop, [.of stop .unexpectedEnd])
    else if s.has stop '\x7d' then (stop + 1, [])
    else (stop, [.of stop .unterminatedEscape])
  let complaints := none_ ++ large ++ open_
  if complaints.isEmpty then ⟨last, encode value, [], true, false⟩
  else ⟨last, s.slice i last, if report then complaints else [], false, true⟩

def isOctal (s : Source) (i : Nat) : Bool := i < s.size && 0x30 ≤ s.unitAt i && s.unitAt i ≤ 0x37

/-- Reads an escape of up to `most` further octal digits; `j` is behind the first one. -/
def octalEnd (s : Source) (most j : Nat) : Nat :=
  match most with
  | 0 => j
  | most + 1 => if s.isOctal j then octalEnd s most (j + 1) else j

def malformedEscape (s : Source) (i stop : Nat) : Lexeme := ⟨stop, s.slice i stop, [], false, true⟩

/-- Reads an octal escape, which is never allowed. -/
def octalEscape (s : Source) (report : Bool) (i stop : Nat) : Lexeme :=
  let code := (s.slice (i + 1) stop).foldl (fun n u => n * 8 + (u.toNat - 0x30)) 0
  if report then ⟨stop, encode code, [.of i (.octalEscape code)], false, true⟩
  else s.malformedEscape i stop

/-- Reads an escape of exactly `count` hexadecimal digits from `j` on. -/
def hexEscape (s : Source) (report : Bool) (i j count : Nat) : Lexeme :=
  let stop := min (s.hexEnd j) (j + count)
  if stop = j + count then ⟨stop, encode (s.hexValue j stop), [], true, false⟩
  else
    let l := s.malformedEscape i stop
    if report then l.complain stop .hexDigitExpected else l

/-- Reads the escape whose backslash stands at `i`. What is wrong with it is reported only if `report`
is set; that the text ends is always reported. -/
def escape (s : Source) (report : Bool) (i : Nat) : Lexeme :=
  let j := i + 1
  if s.size ≤ j then ⟨j, [], [.of j .unexpectedEnd], false, false⟩
  else
    let c := s.unitAt j
    let k := j + 1
    let plainly (u : UInt16) : Lexeme := { stop := k, value := [u] }
    if c = 0x30 && !(k < s.size && isDigit (s.unitAt k)) then plainly 0
    else if 0x30 ≤ c && c ≤ 0x33 then s.octalEscape report i (s.octalEnd 2 k)
    else if 0x34 ≤ c && c ≤ 0x37 then s.octalEscape report i (s.octalEnd 1 k)
    else if c = 0x38 || c = 0x39 then
      if report then ⟨k, [c.toUInt16], [.of i (.escapeNotAllowed (s.slice i k).toString)], false, true⟩
      else s.malformedEscape i k
    else if c = 0x62 then plainly 0x08
    else if c = 0x74 then plainly 0x09
    else if c = 0x6E then plainly 0x0A
    else if c = 0x76 then plainly 0x0B
    else if c = 0x66 then plainly 0x0C
    else if c = 0x72 then plainly 0x0D
    else if c = 0x75 then
      if s.has k '\x7b' then s.bracedEscape report i else s.hexEscape report i k 4
    else if c = 0x78 then s.hexEscape report i k 2
    else if c = 0x0D then { stop := if s.has k '\n' then k + 1 else k }
    else if isLineEnd c then { stop := k }
    else plainly c.toUInt16

/-- Reads one character of a name, or an escape in its place. -/
def namePiece? (s : Source) (i : Nat) : Option Lexeme :=
  let c := s.codePoint i
  if s.size ≤ i then none
  else if continuesName c then some { stop := i + width c, value := encode c }
  else if c ≠ 0x5C then none
  else if (s.bracedEscape? i).any continuesName then some (s.bracedEscape true i)
  else (s.plainEscape? i).bind fun v =>
    if continuesName v then some ⟨i + 6, encode v, [], true, false⟩ else none

/-- Reads at most `fuel` characters of a name from `i` on. -/
def nameRest (s : Source) : Nat → Nat → Lexeme
  | 0, i => { stop := i }
  | fuel + 1, i =>
    match s.namePiece? i with
    | none => { stop := i }
    | some piece => piece.append (nameRest s fuel piece.stop)

/-- Reads the rest of a name, and the escapes in it, from `i` on. -/
def nameParts (s : Source) (i : Nat) : Lexeme := s.nameRest (s.size - i) i

/-! ## No reading goes back -/

theorem le_hexEnd (s : Source) (i : Nat) : i ≤ s.hexEnd i := s.le_skipWhile _ i

theorem le_octalEnd (s : Source) (most j : Nat) : j ≤ s.octalEnd most j := by
  induction most generalizing j with
  | zero => exact Nat.le_refl j
  | succ most ih =>
    rw [octalEnd]
    split
    · exact Nat.le_of_succ_le (ih (j + 1))
    · exact Nat.le_refl j

theorem le_bracedEscape (s : Source) (report : Bool) (i : Nat) : i ≤ (s.bracedEscape report i).stop := by
  have hdigits := s.le_hexEnd (i + 3)
  unfold bracedEscape
  grind

theorem le_hexEscape (s : Source) (report : Bool) (i j count : Nat) : j ≤ (s.hexEscape report i j count).stop := by
  have hdigits := s.le_hexEnd j
  unfold hexEscape malformedEscape Lexeme.complain
  grind

theorem stop_octalEscape (s : Source) (report : Bool) (i stop : Nat) : (s.octalEscape report i stop).stop = stop := by
  unfold octalEscape malformedEscape
  grind

theorem le_escape (s : Source) (report : Bool) (i : Nat) : i ≤ (s.escape report i).stop := by
  have hbraced := s.le_bracedEscape report i
  have hhex := s.le_hexEscape report i (i + 2)
  have hoctal := fun most => s.le_octalEnd most (i + 2)
  unfold escape malformedEscape
  dsimp only
  repeat' with_reducible apply Lexeme.le_ite
  all_goals grind [stop_octalEscape]

theorem le_namePiece {s : Source} {i : Nat} {l : Lexeme} (h : s.namePiece? i = some l) : i ≤ l.stop := by
  have hbraced := s.le_bracedEscape true i
  unfold namePiece? at h
  dsimp only at h
  split at h
  · cases h
  split at h
  · cases h
    exact Nat.le_add_right _ _
  split at h
  · cases h
  split at h
  · cases h
    exact hbraced
  · obtain ⟨v, -, hv⟩ := Option.bind_eq_some_iff.mp h
    split at hv
    · cases hv
      exact Nat.le_add_right _ _
    · cases hv

theorem le_nameRest (s : Source) (fuel i : Nat) : i ≤ (s.nameRest fuel i).stop := by
  induction fuel generalizing i with
  | zero => exact Nat.le_refl i
  | succ fuel ih =>
    rw [nameRest]
    split
    · exact Nat.le_refl i
    · next piece hpiece => exact Nat.le_trans (le_namePiece hpiece) (ih piece.stop)

theorem le_nameParts (s : Source) (i : Nat) : i ≤ (s.nameParts i).stop := s.le_nameRest _ i

end LintRepair.Syntax.Source
