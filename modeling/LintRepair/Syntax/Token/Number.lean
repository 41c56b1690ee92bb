import LintRepair.Syntax.Token.Escape
import LintRepair.Value.Number

/-!
# Numbers

Decimal, hexadecimal, octal and binary literals with their separators, and the suffix of the large ones.
-/
namespace LintRepair.Syntax.Source

/-- Where separators of digits stand. -/
structure Separation where
  /-- A separator may come next. -/
  allowed : Bool := false
  /-- A separator has just come. -/
  pending : Bool := false

/-- Reads digits that satisfy `p` and the separators among them, at most `fuel` of both. -/
def digitRun (s : Source) (p : Nat → Bool) : Nat → Separation → Nat → Lexeme
  | 0, _, i => { stop := i }
  | fuel + 1, sep, i =>
    let c := s.unitAt i
    if i < s.size && c = 0x5F then
      if sep.allowed then digitRun s p fuel ⟨false, true⟩ (i + 1)
      else
        let cause := if sep.pending then .repeatedSeparator else .misplacedSeparator
        let rest := digitRun s p fuel sep (i + 1)
        { rest with complaints := .of i cause :: rest.complaints }
    else if i < s.size && p c then
      let rest := digitRun s p fuel ⟨true, false⟩ (i + 1)
      { rest with value := c.toUInt16 :: rest.value }
    else { stop := i }

/-- Reads digits; a separator may not end them. -/
def digits (s : Source) (p : Nat → Bool) (i : Nat) : Lexeme :=
  let l := s.digitRun p (s.size - i + 1) {} i
  if s.has (l.stop - 1) '_' then l.complain (l.stop - 1) .misplacedSeparator else l

/-- A name begins at `i`. -/
def nameAt (s : Source) (i : Nat) : Bool := i < s.size && beginsName (s.codePoint i)

/-- Looks at a name that follows the number from `start` to `l.stop` without a gap. -/
def checkNumberEnd (s : Source) (start : Nat) (scientific : Bool) (l : Lexeme) : Lexeme :=
  if s.nameAt l.stop then
    let name := s.nameParts l.stop
    let l' := { l with complaints := l.complaints ++ name.complaints }
    if name.value = [0x6E] && s.has l.stop 'n' then
      { l'.complain start (if scientific then .bigintExponent else .bigintFraction) with
        stop := name.stop }
    else l'.complain l.stop .nameAfterNumber
  else l

/-- The kind of an integer and the lexeme with its suffix. -/
def largeSuffix (s : Source) (l : Lexeme) : Kind × Lexeme :=
  if s.has l.stop 'n' then (.bigIntLiteral, { l with stop := l.stop + 1, value := l.value ++ [0x6E] })
  else (.numericLiteral, l)

/-- How the digits before the point have been read. -/
inductive Whole where
  | plain (l : Lexeme)
  | leadingZero (l : Lexeme)
  | octal (l : Lexeme)

/-- Reads the digits before the point. -/
def wholePart (s : Source) (start : Nat) : Whole :=
  if s.has start '0' then
    if s.has (start + 1) '_' then
      let l := s.digits isDigit start
      .plain { l with complaints := .of (start + 1) .misplacedSeparator :: l.complaints }
    else
      let stop := s.skipWhile isDigit (start + 1)
      let value := s.slice (start + 1) stop
      let l : Lexeme := { stop, value := s.slice start stop }
      if value.isEmpty then .plain l
      else if value.all fun u => u.toNat ≤ 0x37 then .octal l
      else .leadingZero l
  else .plain (s.digits isDigit start)

/-- The octal digits of a value that is stored with binary precision. -/
def octalText (value : Nat) : String :=
  let (m, q) := Number.nearestBinary value 1
  if 971 < q then Number.infinity.text
  else
    let zeros := ((q + 2) / 3).toNat
    String.ofList (Nat.toDigits 8 (m * Number.twoTo q.toNat / Number.twoTo (3 * zeros))
      ++ List.replicate zeros '0')

/-- Complains about octal digits behind a zero; the sign before them belongs to what is complained about. -/
def complainOctal (negative : Bool) (start : Nat) (l : Lexeme) : Lexeme :=
  let value := l.value.foldl (fun n u => 8 * n + (u.toNat - 0x30)) 0
  let digits := if value < Number.twoTo 53 then String.ofList (Nat.toDigits 8 value) else octalText value
  l.complain (if negative then start - 1 else start) (.octalLiteral negative digits)

/-- Reads a number that is written in tenths; `negative` when a minus sign stands before it. -/
def decimal (s : Source) (negative : Bool) (start : Nat) : Kind × Lexeme :=
  let go (zeros : Bool) (whole : Lexeme) : Kind × Lexeme :=
    let hasPoint := s.has whole.stop '.'
    let l := if hasPoint then
        let part := s.digits isDigit (whole.stop + 1)
        { whole.append part with value := whole.value ++ [0x2E] ++ part.value }
      else whole
    let scientific := s.has l.stop 'e' || s.has l.stop 'E'
    let l : Lexeme :=
      if scientific then
        let from_ := l.stop + 1
        let sign := if s.has from_ '+' || s.has from_ '-' then from_ + 1 else from_
        let part := s.digits isDigit sign
        let complaints := l.complaints ++ part.complaints
        if part.value.isEmpty then
          { l with stop := part.stop, complaints := complaints ++ [.of part.stop .digitExpected] }
        else
          { l with stop := part.stop, complaints, value := l.value ++ s.slice l.stop sign ++ part.value }
      else l
    if zeros then (.numericLiteral, l.complain start .leadingZero)
    else if hasPoint || scientific then
      (.numericLiteral, s.checkNumberEnd start (!hasPoint && scientific) l)
    else
      let (kind, l) := s.largeSuffix l
      (kind, s.checkNumberEnd start false l)
  match s.wholePart start with
  | .octal l => (.numericLiteral, complainOctal negative start l)
  | .leadingZero l => go true l
  | .plain l => go false l

/-- Reads a number of the given base behind its two-letter mark. -/
def based (s : Source) (start : Nat) (p : Nat → Bool) (missing : Cause) : Kind × Lexeme :=
  let l := s.digits p (start + 2)
  let l := if l.value.isEmpty then { l.complain l.stop missing with value := [0x30] } else l
  s.largeSuffix { l with value := s.slice start (start + 2) ++ l.value }

/-- Reads a number that starts with a digit; `negative` when a minus sign stands before it. -/
def number (s : Source) (negative : Bool) (start : Nat) : Kind × Lexeme :=
  let marked (c d : Char) : Bool :=
    s.has start '0' && start + 2 < s.size && (s.has (start + 1) c || s.has (start + 1) d)
  if marked 'x' 'X' then s.based start (fun c => (hexDigit? c).isSome) .hexDigitExpected
  else if marked 'b' 'B' then s.based start (fun c => c = 0x30 || c = 0x31) .binaryDigitExpected
  else if marked 'o' 'O' then s.based start (fun c => 0x30 ≤ c && c ≤ 0x37) .octalDigitExpected
  else s.decimal negative start

/-! ## No reading goes back -/

theorem le_digitRun (s : Source) (p : Nat → Bool) (fuel : Nat) (sep : Separation) (i : Nat) :
    i ≤ (s.digitRun p fuel sep i).stop := by
  induction fuel generalizing sep i with
  | zero => exact Nat.le_refl i
  | succ fuel ih =>
    have hnext := fun sep => Nat.le_of_succ_le (ih sep (i + 1))
    rw [digitRun]
    dsimp only
    repeat' with_reducible apply Lexeme.le_ite
    all_goals grind

theorem le_digits (s : Source) (p : Nat → Bool) (i : Nat) : i ≤ (s.digits p i).stop :=
  Lexeme.le_ite (s.le_digitRun _ _ _ i) (s.le_digitRun _ _ _ i)

theorem le_checkNumberEnd (s : Source) (start : Nat) (scientific : Bool) (l : Lexeme) :
    l.stop ≤ (s.checkNumberEnd start scientific l).stop := by
  have hname := s.le_nameParts l.stop
  unfold checkNumberEnd
  dsimp only
  repeat' with_reducible apply Lexeme.le_ite
  · exact hname
  · exact Nat.le_refl _
  · exact Nat.le_refl _

theorem le_largeSuffix (s : Source) (l : Lexeme) : l.stop ≤ (s.largeSuffix l).2.stop := by
  unfold largeSuffix
  split
  · exact Nat.le_succ _
  · exact Nat.le_refl _

theorem le_based (s : Source) (start : Nat) (p : Nat → Bool) (missing : Cause) :
    start ≤ (s.based start p missing).2.stop := by
  have hdigits := s.le_digits p (start + 2)
  refine Nat.le_trans ?_ (le_largeSuffix s _)
  dsimp only
  split <;> exact Nat.le_of_add_right_le hdigits

theorem le_wholePart (s : Source) (start : Nat) :
    match s.wholePart start with
    | .plain l | .leadingZero l | .octal l => start ≤ l.stop := by
  have hdigits := s.le_digits isDigit start
  have hrun := s.le_skipWhile isDigit (start + 1)
  unfold wholePart
  grind

theorem le_decimal (s : Source) (negative : Bool) (start : Nat) : start ≤ (s.decimal negative start).2.stop := by
  have hwhole := s.le_wholePart start
  unfold decimal
  extract_lets go
  have hgo : ∀ zeros whole, whole.stop ≤ (go zeros whole).2.stop := by
    intro zeros whole
    dsimp -zeta only [go]
    extract_lets hasPoint part joined l scientific marked sign exponent complaints scaled
    have hl : whole.stop ≤ l.stop := by
      have hpart := s.le_digits isDigit (whole.stop + 1)
      exact Lexeme.le_ite (Nat.le_of_succ_le hpart) (Nat.le_refl _)
    have hscaled : l.stop ≤ scaled.stop := by
      have hsign : l.stop ≤ sign := by
        dsimp only [sign]
        split <;> omega
      have hexponent := Nat.le_trans hsign (s.le_digits isDigit sign)
      exact Lexeme.le_ite (Lexeme.le_ite hexponent hexponent) (Nat.le_refl _)
    refine Nat.le_trans (Nat.le_trans hl hscaled) ?_
    split
    · exact Nat.le_refl _
    split
    · exact s.le_checkNumberEnd _ _ _
    · exact Nat.le_trans (s.le_largeSuffix scaled) (s.le_checkNumberEnd _ _ _)
  clear_value go
  split <;> rename_i l hparts <;> rw [hparts] at hwhole
  · exact hwhole
  · exact Nat.le_trans hwhole (hgo _ _)
  · exact Nat.le_trans hwhole (hgo _ _)

theorem le_number (s : Source) (negative : Bool) (start : Nat) : start ≤ (s.number negative start).2.stop := by
  unfold number
  dsimp only
  split
  · exact s.le_based start _ _
  split
  · exact s.le_based start _ _
  split
  · exact s.le_based start _ _
  · exact s.le_decimal negative start

end LintRepair.Syntax.Source
