import LintRepair.Syntax.Token.Escape

/-!
# Strings, templates and patterns

Tokens that run up to a closing mark.
-/
namespace LintRepair.Syntax.Source

/-- Reads a string up to its closing quote. A string of markup has no escapes and may span
lines. -/
def stringBody (s : Source) (quote : Nat) (inMarkup : Bool) : Nat → Nat → Lexeme
  | 0, i => { stop := i }
  | fuel + 1, i =>
    if s.size ≤ i then ⟨i, [], [.of i .unterminatedString], false, false⟩
    else
      let c := s.unitAt i
      if c = quote then { stop := i + 1 }
      else if c = 0x5C && !inMarkup then
        let l := s.escape true i
        l.append (stringBody s quote inMarkup fuel l.stop)
      else if (c = 0x0A || c = 0x0D) && !inMarkup then
        ⟨i, [], [.of i .unterminatedString], false, false⟩
      else
        let rest := stringBody s quote inMarkup fuel (i + 1)
        { rest with value := c.toUInt16 :: rest.value }

/-- Reads a string whose opening quote stands at `i`. -/
def quoted (s : Source) (inMarkup : Bool) (i : Nat) : Lexeme :=
  s.stringBody (s.unitAt i) inMarkup (s.size - i) (i + 1)

/-- Reads a stretch of a template; the answer tells whether a substitution follows. -/
def templateBody (s : Source) (report : Bool) : Nat → Nat → Bool × Lexeme
  | 0, i => (false, { stop := i })
  | fuel + 1, i =>
    if s.size ≤ i then (false, ⟨i, [], [.of i .unterminatedTemplate], false, false⟩)
    else
      let c := s.unitAt i
      let onward (l : Lexeme) : Bool × Lexeme :=
        let (open_, rest) := templateBody s report fuel l.stop
        (open_, l.append rest)
      if c = 0x60 then (false, { stop := i + 1 })
      else if c = 0x24 && s.has (i + 1) '\x7b' then (true, { stop := i + 2 })
      else if c = 0x5C then onward (s.escape report i)
      else if c = 0x0D then
        onward { stop := if s.has (i + 1) '\n' then i + 2 else i + 1, value := [0x0A] }
      else onward { stop := i + 1, value := [c.toUInt16] }

/-- Reads a template from the mark at `i` that opens it or closes a substitution. -/
def template (s : Source) (report : Bool) (i : Nat) : Kind × Lexeme :=
  let opens := s.has i '`'
  let (more, l) := s.templateBody report (s.size - i) (i + 1)
  let kind : Kind := match opens, more with
    | true, false => .noSubstitutionTemplateLiteral
    | true, true => .templateHead
    | false, true => .templateMiddle
    | false, false => .templateTail
  (kind, l)

/-- Finds the slash that closes a pattern; `none` where its line or the text ends first. -/
def patternEnd (s : Source) : Nat → Bool → Nat → Nat × Bool
  | 0, _, i => (i, false)
  | fuel + 1, inClass, i =>
    let c := s.unitAt i
    if s.size ≤ i || isLineEnd c then (i, false)
    else if c = 0x5C then
      if i + 1 < s.size && !isLineEnd (s.unitAt (i + 1)) then patternEnd s fuel inClass (i + 2)
      else (i + 1, false)
    else if c = 0x2F && !inClass then (i, true)
    else if c = 0x5B then patternEnd s fuel true (i + 1)
    else if c = 0x5D then patternEnd s fuel false (i + 1)
    else patternEnd s fuel inClass (i + 1)

/-- How deep a place in a pattern lies in classes, groups and counts. -/
structure PatternNesting where
  classes : Nat := 0
  groups : Nat := 0
  inCount : Bool := false

/-- The nesting behind a character of a pattern; `none` at a bracket that closes nothing. -/
def PatternNesting.step (n : PatternNesting) (c : Nat) : Option PatternNesting :=
  if c = 0x5B then some { n with classes := n.classes + 1 }
  else if c = 0x5D && n.classes > 0 then some { n with classes := n.classes - 1 }
  else if n.classes > 0 then some n
  else if c = 0x7B then some { n with inCount := true }
  else if c = 0x7D && n.inCount then some { n with inCount := false }
  else if n.inCount then some n
  else if c = 0x28 then some { n with groups := n.groups + 1 }
  else if c = 0x29 && n.groups > 0 then some { n with groups := n.groups - 1 }
  else if c = 0x29 || c = 0x5D || c = 0x7D then none
  else some n

/-- The first bracket of an open pattern that closes nothing, or `stop`. -/
def openPatternEnd (s : Source) (stop : Nat) : Nat → PatternNesting → Nat → Nat
  | 0, _, i => i
  | fuel + 1, n, i =>
    if stop ≤ i then stop
    else if s.unitAt i = 0x5C then openPatternEnd s stop fuel n (min (i + 2) stop)
    else match n.step (s.unitAt i) with
      | none => i
      | some n' => openPatternEnd s stop fuel n' (i + 1)

/-- The end of a text less the blanks and semicolons before it. -/
def trimmedEnd (s : Source) : Nat → Nat
  | 0 => 0
  | i + 1 =>
    if isGap (s.unitAt i) || isLineEnd (s.unitAt i) || s.unitAt i = 0x3B then trimmedEnd s i else i + 1

/-- The offset behind the letters that follow a pattern. -/
def patternFlagsEnd (s : Source) : Nat → Nat → Nat
  | 0, i => i
  | fuel + 1, i =>
    if i < s.size && continuesName (s.codePoint i) then
      patternFlagsEnd s fuel (i + width (s.codePoint i))
    else i

/-- Reads a pattern whose opening slash stands at `i`. -/
def pattern (s : Source) (i : Nat) : Lexeme :=
  let (j, closed) := s.patternEnd (s.size - i) false (i + 1)
  if closed then
    let stop := s.patternFlagsEnd (s.size - j) (j + 1)
    { stop, value := s.slice i stop }
  else
    -- The slash stays, whatever is cut off behind it.
    let stop := max (i + 1) (s.trimmedEnd (s.openPatternEnd j (s.size - i) {} (i + 1)))
    ⟨stop, s.slice i stop, [.of i .unterminatedPattern], false, false⟩

/-- Reads text between the tags of markup from `i` on; the kind tells whether it is all blank and has a
line end. -/
def markupBody (s : Source) : Nat → Bool → Bool → Nat → Kind × Lexeme
  | 0, _, _, i => (.jsxText, { stop := i })
  | fuel + 1, onlyBlank, hasLineEnd, i =>
    let c := s.unitAt i
    if s.size ≤ i || c = 0x7B || (c = 0x3C && !s.isConflict i) then
      (if onlyBlank && hasLineEnd then .jsxTextAllWhiteSpaces else .jsxText, { stop := i })
    else if c = 0x3C then
      (.conflictMarkerTrivia, ⟨s.conflictEnd i, [], [.of i .conflictMarker], false, false⟩)
    else
      let complaints : List Complaint :=
        if c = 0x3E then [.of i .strayGreaterThan]
        else if c = 0x7D then [.of i .strayCloseBrace]
        else []
      let blank := isGap c || isLineEnd c
      let (kind, rest) :=
        markupBody s fuel (onlyBlank && blank) (hasLineEnd || (onlyBlank && isLineEnd c)) (i + 1)
      (kind, Lexeme.append { stop := i + 1, value := [c.toUInt16], complaints } rest)

/-! ## No reading goes back -/

theorem le_stringBody (s : Source) (quote : Nat) (inMarkup : Bool) (fuel i : Nat) :
    i ≤ (s.stringBody quote inMarkup fuel i).stop := by
  induction fuel generalizing i with
  | zero => exact Nat.le_refl i
  | succ fuel ih =>
    have hescape := Nat.le_trans (s.le_escape true i) (ih (s.escape true i).stop)
    rw [stringBody]
    dsimp only
    repeat' with_reducible apply Lexeme.le_ite
    · exact Nat.le_refl i
    · exact Nat.le_succ i
    · exact hescape
    · exact Nat.le_refl i
    · exact Nat.le_of_succ_le (ih (i + 1))

theorem lt_quoted (s : Source) (inMarkup : Bool) (i : Nat) : i < (s.quoted inMarkup i).stop :=
  s.le_stringBody _ _ _ (i + 1)

theorem le_templateBody (s : Source) (report : Bool) (fuel i : Nat) :
    i ≤ (s.templateBody report fuel i).2.stop := by
  induction fuel generalizing i with
  | zero => exact Nat.le_refl i
  | succ fuel ih =>
    have honward := fun {j} (hj : i ≤ j) => Nat.le_trans hj (ih j)
    rw [templateBody]
    dsimp only
    split
    · exact Nat.le_refl i
    split
    · exact Nat.le_succ i
    split
    · exact Nat.le_add_right i 2
    split
    · exact honward (s.le_escape report i)
    split
    · refine honward ?_
      split <;> omega
    · exact honward (Nat.le_succ i)

theorem le_patternEnd (s : Source) (fuel : Nat) (inClass : Bool) (i : Nat) :
    i ≤ (s.patternEnd fuel inClass i).1 := by
  induction fuel generalizing inClass i with
  | zero => exact Nat.le_refl i
  | succ fuel ih =>
    rw [patternEnd]
    grind

theorem le_patternFlagsEnd (s : Source) (fuel i : Nat) : i ≤ s.patternFlagsEnd fuel i := by
  induction fuel generalizing i with
  | zero => exact Nat.le_refl i
  | succ fuel ih =>
    rw [patternFlagsEnd]
    split
    · exact Nat.le_trans (Nat.le_add_right _ _) (ih _)
    · exact Nat.le_refl i

theorem le_pattern (s : Source) (i : Nat) : i ≤ (s.pattern i).stop := by
  have hend := s.le_patternEnd (s.size - i) false (i + 1)
  unfold pattern
  dsimp only
  split
  · exact Nat.le_trans (by omega) (s.le_patternFlagsEnd _ _)
  · exact Nat.le_trans (Nat.le_succ i) (Nat.le_max_left _ _)

theorem le_markupBody (s : Source) (fuel : Nat) (onlyBlank hasLineEnd : Bool) (i : Nat) :
    i ≤ (s.markupBody fuel onlyBlank hasLineEnd i).2.stop := by
  induction fuel generalizing onlyBlank hasLineEnd i with
  | zero => exact Nat.le_refl i
  | succ fuel ih =>
    rw [markupBody]
    dsimp only
    split
    · split <;> exact Nat.le_refl i
    split
    · exact s.le_conflictEnd i
    · exact Nat.le_of_succ_le (ih _ _ (i + 1))

end LintRepair.Syntax.Source
