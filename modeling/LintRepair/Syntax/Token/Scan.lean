import LintRepair.Syntax.Token.Number
import LintRepair.Syntax.Token.Quoted

/-!
# Scanning

The token at an offset, and the ways in which the grammar reads an offset again once it knows what to
expect there.
-/
namespace LintRepair.Syntax

/-- The dialect of a file. -/
structure Dialect where
  /-- Angle brackets may be markup. -/
  markup : Bool := false
  /-- Types and what else depends on them are errors. -/
  untyped : Bool := false
  /-- All declarations are ambient. -/
  ambient : Bool := false
  /-- The file is one value. -/
  data : Bool := false
deriving DecidableEq, Repr, Inhabited

/-- The word that a text spells, or a plain name. -/
def Kind.ofWord (t : Text) : Kind :=
  if t.length < 2 || 12 < t.length then .identifier
  else
    let word := t.toString
    match Kind.keywords.find? (·.1 = word) with
    | some (_, k) => k
    | none => .identifier

namespace Source

/-- The longest of the given punctuation marks that stands at `i`; they are listed longest first. -/
def longestMark (s : Source) (i : Nat) : List (String × Kind) → Option (Nat × Kind)
  | [] => none
  | (mark, k) :: rest =>
    let units := Text.ofString mark
    if s.slice i (i + units.length) = units then some (units.length, k) else longestMark s i rest

/-- Marks of more than one character, longest first. A right angle bracket is always read alone. -/
def longMarks : List (String × Kind) :=
  let joined := Kind.punctuation.filter fun (mark, _) =>
    1 < mark.length && !mark.startsWith ">" && mark ≠ "</" && mark ≠ "?."
  joined.filter (·.1.length = 4) ++ joined.filter (·.1.length = 3) ++ joined.filter (·.1.length = 2)

def shortMarks : List (String × Kind) := Kind.punctuation.filter (·.1.length = 1)

/-- The mark at `i` and its length. -/
def mark? (s : Source) (d : Dialect) (i : Nat) : Option (Nat × Kind) :=
  if s.has i '?' && s.has (i + 1) '.' then
    if isDigit (s.unitAt (i + 2)) then some (1, .questionToken) else some (2, .questionDotToken)
  else if d.markup && s.has i '<' && s.has (i + 1) '/' && !s.has (i + 2) '*' then
    some (2, .lessThanSlashToken)
  else (s.longestMark i longMarks).orElse fun _ => s.longestMark i shortMarks

/-- The kind and extent of the token at `i`, which is no trivia; `before` is the token before it. -/
def lexeme (s : Source) (d : Dialect) (before : Token) (i : Nat) : Kind × Lexeme :=
  let c := s.codePoint i
  let bad (stop : Nat) (cause : Cause) : Kind × Lexeme :=
    (.unknown, ⟨stop, before.value, [.of i cause], false, false⟩)
  let word (l : Lexeme) : Kind × Lexeme := (Kind.ofWord l.value, l)
  let escaped? (j : Nat) : Option Lexeme :=
    if (s.bracedEscape? j).any beginsName || (s.plainEscape? j).any beginsName then
      let first := if (s.bracedEscape? j).any beginsName then s.bracedEscape true j
        else ⟨j + 6, encode ((s.plainEscape? j).getD 0), [], true, false⟩
      some (first.append (s.nameParts first.stop))
    else none
  if beginsName c then word (s.nameParts i)
  else if isDigit c || (c = 0x2E && isDigit (s.unitAt (i + 1))) then
    s.number (before.kind = .minusToken) i
  else if c = 0x22 || c = 0x27 then (.stringLiteral, s.quoted false i)
  else if c = 0x60 then s.template false i
  else if c = 0x5C then
    match escaped? i with
    | some l => word l
    | none => bad (i + 1) .invalidCharacter
  else if c = 0x23 then
    let named (l : Lexeme) : Kind × Lexeme := (.privateIdentifier, { l with value := 0x23 :: l.value })
    if i ≠ 0 && s.has (i + 1) '!' then bad (i + 1) .shebangInside
    else match (if s.has (i + 1) '\\' then escaped? (i + 1) else none) with
      | some l => named l
      | none =>
        if s.nameAt (i + 1) then named (s.nameParts (i + 1))
        else (.privateIdentifier, ⟨i + 1, [0x23], [.of i .invalidCharacter], false, false⟩)
  else if c = 0xFFFD then (.unknown, ⟨s.size, before.value, [.of 0 .binaryFile], false, false⟩)
  else match s.mark? d i with
    | some (n, k) => (k, { stop := i + n, value := before.value })
    | none => bad (i + width c) .invalidCharacter

/-- Skips the trivia at `i`, reporting on it, and notes whether a line ends in it. -/
def leading (s : Source) : Nat → Nat → Lexeme × Bool
  | 0, i => ({ stop := i }, false)
  | fuel + 1, i =>
    match s.triviaStep true i with
    | none => ({ stop := i }, false)
    | some j =>
      let isComment := s.has i '/' && s.has (i + 1) '*'
      let ends := isLineEnd (s.unitAt i) ||
        (isComment && (s.slice (i + 2) j).any fun u => isLineEnd u.toNat)
      let complaints : List Complaint :=
        if isComment && !(s.blockEnd (i + 2)).2 then [.of j (.expected "*/")]
        else if s.mayBeConflict i then [.of i .conflictMarker]
        else []
      let (rest, later) := leading s fuel j
      (Lexeme.append { stop := j, complaints } rest, ends || later)

/-- The token behind `from_`; `before` is the token before it. -/
def token (s : Source) (d : Dialect) (before : Token) (from_ : Nat) : Token :=
  let (trivia, lineEnds) := s.leading (s.size - from_) from_
  let i := trivia.stop
  let (kind, l) : Kind × Lexeme :=
    if s.size ≤ i then (.endOfFileToken, { stop := i, value := before.value }) else s.lexeme d before i
  { kind, fullStart := from_, start := i, stop := l.stop, afterLineEnd := lineEnds, value := l.value,
    escaped := l.escaped, malformed := l.malformed, complaints := trivia.complaints ++ l.complaints }

end Source

namespace Token

/-- The token with another extent. -/
def reread (t : Token) (kind : Kind) (l : Lexeme) : Token :=
  { t with kind, stop := l.stop, value := l.value, escaped := l.escaped, malformed := l.malformed,
           complaints := l.complaints }

def resized (t : Token) (kind : Kind) (stop : Nat) : Token := { t with kind, stop, complaints := [] }

/-- Marks that begin with a right angle bracket, longest first. -/
def joinedMarks : List (String × Kind) :=
  [(">>>=", .greaterThanGreaterThanGreaterThanEqualsToken),
    (">>>", .greaterThanGreaterThanGreaterThanToken), (">>=", .greaterThanGreaterThanEqualsToken),
    (">>", .greaterThanGreaterThanToken), (">=", .greaterThanEqualsToken)]

/-- Joins a right angle bracket with the marks behind it. -/
def joinGreater (t : Token) (s : Source) : Token :=
  if t.kind ≠ .greaterThanToken then { t with complaints := [] }
  else
    let i := t.start
    match s.longestMark i joinedMarks with
    | some (n, k) => t.resized k (i + n)
    | none => { t with complaints := [] }

/-- Reads a slash as the start of a pattern. -/
def asPattern (t : Token) (s : Source) : Token :=
  t.reread .regularExpressionLiteral (s.pattern t.start)

/-- Reads a template's stretch again. -/
def asTemplate (t : Token) (s : Source) (report : Bool) : Token :=
  let (kind, l) := s.template report t.start
  t.reread kind l

/-- Cuts a token down to its first character. -/
def cutTo (t : Token) (kind : Kind) : Token := t.resized kind (t.start + 1)

/-- The token of markup text at an offset. -/
def markupText (t : Token) (s : Source) (i : Nat) : Token :=
  let at_ : Token :=
    { t with fullStart := i, start := i, complaints := [], escaped := false, malformed := false }
  if s.size ≤ i then at_.resized .endOfFileToken i
  else if s.has i '<' && s.has (i + 1) '/' then at_.resized .lessThanSlashToken (i + 2)
  else if s.has i '<' then at_.resized .lessThanToken (i + 1)
  else if s.has i '\x7b' then at_.resized .openBraceToken (i + 1)
  else
    let (kind, l) := s.markupBody (s.size - i) true false i
    at_.reread kind l

/-- Lengthens a word by the hyphens and letters of a markup name. -/
def asMarkupName (t : Token) (s : Source) : Token :=
  if t.kind.isWord then
    let rest := lengthen (s.size - t.stop) t.stop
    let value := t.value ++ rest.value
    { t with kind := Kind.ofWord value, stop := rest.stop, value, complaints := rest.complaints,
             escaped := t.escaped || rest.escaped }
  else { t with complaints := [] }
where
  /-- Hyphens and parts of names from an offset on. -/
  lengthen : Nat → Nat → Lexeme
    | 0, i => { stop := i }
    | fuel + 1, i =>
      if s.has i '-' then Lexeme.append { stop := i + 1, value := [0x2D] } (lengthen fuel (i + 1))
      else
        let parts := s.nameParts i
        if parts.stop = i then { stop := i } else parts.append (lengthen fuel parts.stop)

/-- Reads the value of a markup attribute behind its equals sign. -/
def markupValue (t : Token) (s : Source) (d : Dialect) : Token :=
  let i := t.stop
  if s.has i '"' || s.has i '\'' then
    { t with fullStart := i, start := i }.reread .stringLiteral (s.quoted true i)
  else s.token d t i

end Token

/-! ## Where tokens stand -/

namespace Kind

def isBracket : Kind → Bool
  | .openParenToken | .closeParenToken | .openBraceToken | .closeBraceToken => true
  | _ => false

/-- The kinds of which every token stands as the kind says: the end of the file and brackets. -/
def isFixed (k : Kind) : Bool := k = .endOfFileToken || k.isBracket

theorem isFixed_eq_false {k : Kind} (h : k.isFixed = false) : k ≠ .endOfFileToken ∧ k.isBracket = false := by
  rwa [isFixed, Bool.or_eq_false_iff, decide_eq_false_iff_not] at h

theorem isFixed_ofWord (t : Text) : (ofWord t).isFixed = false := by
  have hwords : ∀ w ∈ keywords, w.2.isFixed = false := by decide
  rw [ofWord]
  split
  · rfl
  · dsimp only
    split
    · next hfind => exact hwords _ (List.mem_of_find?_eq_some hfind)
    · rfl

end Kind

/-- What every reading of a token keeps: it neither stands before the first token nor ends before it starts,
if it is the end of the file, nothing but trivia stands from its trivia on, and a bracket is one character behind
its trivia. -/
structure Token.Sound (t : Token) (s : Source) : Prop where
  fullStart : t.fullStart = 0 ∨ s.skipTrivia 0 ≤ t.fullStart
  start : s.skipTrivia 0 ≤ t.start
  stop : t.start ≤ t.stop
  ending : t.kind = .endOfFileToken → s.size ≤ s.skipTrivia t.fullStart
  bracket : t.kind.isBracket = true → t.start = s.skipTrivia t.fullStart ∧ t.stop = t.start + 1

namespace Source

variable {s : Source}

theorem longestMark_spec {i : Nat} {marks : List (String × Kind)} {mark : Nat × Kind}
    (h : s.longestMark i marks = some mark) : ∃ m ∈ marks, mark = ((Text.ofString m.1).length, m.2) := by
  induction marks with
  | nil => cases h
  | cons m rest ih =>
    unfold longestMark at h
    dsimp only at h
    split at h
    · cases h
      exact ⟨m, List.mem_cons_self, rfl⟩
    · obtain ⟨m', hm', hmark⟩ := ih h
      exact ⟨m', List.mem_cons_of_mem m hm', hmark⟩

/-- No mark is the end of a file, and a bracket is one character. -/
theorem mark_spec {d : Dialect} {i : Nat} {mark : Nat × Kind} (h : s.mark? d i = some mark) :
    mark.2 ≠ .endOfFileToken ∧ (mark.2.isBracket = true → mark.1 = 1) := by
  have hmarks : ∀ m ∈ Kind.punctuation,
      m.2 ≠ .endOfFileToken ∧ (m.2.isBracket = true → (Text.ofString m.1).length = 1) := by decide +kernel
  have hlong : ∀ m ∈ longMarks, m ∈ Kind.punctuation := by
    intro m hm
    simp only [longMarks, List.mem_append, List.mem_filter] at hm
    rcases hm with ((hm | hm) | hm) <;> exact hm.1.1
  have hlisted : ∀ marks : List (String × Kind), (∀ m ∈ marks, m ∈ Kind.punctuation) →
      s.longestMark i marks = some mark →
      mark.2 ≠ .endOfFileToken ∧ (mark.2.isBracket = true → mark.1 = 1) := by
    intro marks hsub hmark
    obtain ⟨m, hm, rfl⟩ := longestMark_spec hmark
    exact hmarks m (hsub m hm)
  rw [mark?] at h
  split at h
  · split at h <;> cases h <;> exact ⟨nofun, nofun⟩
  · split at h
    · cases h
      exact ⟨nofun, nofun⟩
    · cases hmark : s.longestMark i longMarks with
      | some m =>
        rw [hmark] at h
        cases h
        exact hlisted longMarks hlong hmark
      | none =>
        rw [hmark] at h
        exact hlisted shortMarks (fun m hm => (List.mem_filter.mp hm).1) h

theorem isFixed_largeSuffix (l : Lexeme) : (s.largeSuffix l).1.isFixed = false := by
  rw [largeSuffix]
  split <;> rfl

theorem isFixed_number (negative : Bool) (i : Nat) : (s.number negative i).1.isFixed = false := by
  have hbased : ∀ p missing, (s.based i p missing).1.isFixed = false := fun p missing => isFixed_largeSuffix _
  have hdecimal : (s.decimal negative i).1.isFixed = false := by
    rw [decimal]
    dsimp only
    split
    · rfl
    · rw [if_pos rfl]
      rfl
    · rw [if_neg Bool.false_ne_true]
      exact iteInduction (motive := fun p : Kind × Lexeme => p.1.isFixed = false) (fun _ => rfl)
        fun _ => isFixed_largeSuffix _
  rw [number]
  dsimp only
  split
  · exact hbased _ _
  · split
    · exact hbased _ _
    · split
      · exact hbased _ _
      · exact hdecimal

theorem isFixed_template (report : Bool) (i : Nat) : (s.template report i).1.isFixed = false := by
  rw [template]
  dsimp only
  split <;> rfl

/-- A token that is no trivia is not the end of the file, does not end before it starts, and if it is a bracket,
it is one character. -/
structure IsLexeme (i : Nat) (l : Kind × Lexeme) : Prop where
  kind : l.1 ≠ .endOfFileToken
  stop : i ≤ l.2.stop
  bracket : l.1.isBracket = true → l.2.stop = i + 1

theorem IsLexeme.of_isFixed {i : Nat} {k : Kind} {l : Lexeme} (hk : k.isFixed = false) (hl : i ≤ l.stop) :
    IsLexeme i (k, l) := by
  obtain ⟨hkind, hbracket⟩ := Kind.isFixed_eq_false hk
  exact ⟨hkind, hl, fun h => absurd (hbracket.symm.trans h) Bool.false_ne_true⟩

theorem isLexeme_lexeme (d : Dialect) (before : Token) (i : Nat) : IsLexeme i (s.lexeme d before i) := by
  have hparts := s.le_nameParts
  have hbraced := s.le_bracedEscape true
  unfold lexeme
  extract_lets c bad word escaped? named
  have hword : ∀ l : Lexeme, i ≤ l.stop → IsLexeme i (word l) := fun l hl => .of_isFixed (Kind.isFixed_ofWord _) hl
  have hescaped : ∀ j l, escaped? j = some l → j ≤ l.stop := by
    intro j l h
    dsimp only [escaped?] at h
    split at h
    · cases h
      refine Nat.le_trans ?_ (hparts _)
      split
      · exact hbraced j
      · exact Nat.le_add_right _ _
    · cases h
  clear_value word escaped?
  split
  · exact hword _ (hparts i)
  split
  · exact .of_isFixed (isFixed_number _ _) (s.le_number _ i)
  split
  · exact .of_isFixed rfl (Nat.le_of_lt (s.lt_quoted false i))
  split
  · exact .of_isFixed (isFixed_template _ _) (Nat.le_of_succ_le (s.le_templateBody _ _ (i + 1)))
  split
  · split
    · next l hl => exact hword l (hescaped i l hl)
    · exact .of_isFixed rfl (Nat.le_succ i)
  split
  · split
    · exact .of_isFixed rfl (Nat.le_succ i)
    · split
      · next l hl =>
        refine .of_isFixed rfl ?_
        split at hl
        · exact Nat.le_of_succ_le (hescaped (i + 1) l hl)
        · cases hl
      · split
        · exact .of_isFixed rfl (Nat.le_of_succ_le (hparts (i + 1)))
        · exact .of_isFixed rfl (Nat.le_succ i)
  split
  · next hc =>
    have hinside : s.codePoint i ≠ 0 := fun h => absurd (h.symm.trans hc) (by decide)
    exact .of_isFixed rfl (Nat.le_of_lt (lt_size_of_codePoint hinside))
  · split
    · next hmark =>
      obtain ⟨hkind, hbracket⟩ := mark_spec hmark
      exact ⟨hkind, Nat.le_add_right _ _, fun h => congrArg (i + ·) (hbracket h)⟩
    · exact .of_isFixed rfl (Nat.le_add_right _ _)

theorem stop_leading (fuel i : Nat) : (s.leading fuel i).1.stop = s.skipTriviaFor true fuel i := by
  induction fuel generalizing i with
  | zero => rfl
  | succ fuel ih =>
    rw [leading, skipTriviaFor]
    cases s.triviaStep true i with
    | none => rfl
    | some j => exact ih j

theorem kind_token {d : Dialect} {before : Token} {i : Nat} (h : s.size ≤ s.skipTrivia i) :
    (s.token d before i).kind = .endOfFileToken := by
  rw [skipTrivia, ← stop_leading] at h
  rw [token]
  dsimp only
  rw [if_pos h]

/-- A token is sound if it is read from the start of the file or behind its first token. -/
theorem sound_token (d : Dialect) (before : Token) {i : Nat} (hi : i = 0 ∨ s.skipTrivia 0 ≤ i) :
    (s.token d before i).Sound s := by
  have hstop : (s.leading (s.size - i) i).1.stop = s.skipTrivia i := s.stop_leading (s.size - i) i
  have hstart : s.skipTrivia 0 ≤ s.skipTrivia i := by
    rcases hi with rfl | hi
    · exact Nat.le_refl _
    · exact Nat.le_trans hi (s.le_skipTrivia i)
  have hlexeme := s.isLexeme_lexeme d before (s.skipTrivia i)
  rw [token]
  dsimp only
  rw [hstop]
  by_cases hsize : s.size ≤ s.skipTrivia i
  · rw [if_pos hsize]
    exact ⟨hi, hstart, Nat.le_refl _, fun _ => hsize, nofun⟩
  · rw [if_neg hsize]
    exact ⟨hi, hstart, hlexeme.stop, fun hend => absurd hend hlexeme.kind, fun h => ⟨rfl, hlexeme.bracket h⟩⟩

theorem isFixed_markupBody (fuel : Nat) (onlyBlank hasLineEnd : Bool) (i : Nat) :
    (s.markupBody fuel onlyBlank hasLineEnd i).1.isFixed = false := by
  induction fuel generalizing onlyBlank hasLineEnd i with
  | zero => rfl
  | succ fuel ih =>
    rw [markupBody]
    dsimp only
    split
    · split <;> rfl
    · split
      · rfl
      · exact ih _ _ _

end Source

namespace Token

variable {t : Token} {s : Source}

theorem Sound.le_stop (h : t.Sound s) : s.skipTrivia 0 ≤ t.stop := Nat.le_trans h.start h.stop

/-- A token may be read again as one of another kind and another end. -/
theorem Sound.of_isFixed {t' : Token} (h : t.Sound s) (hfull : t'.fullStart = t.fullStart)
    (hstart : t'.start = t.start) (hstop : t.start ≤ t'.stop) (hkind : t'.kind.isFixed = false) : t'.Sound s := by
  obtain ⟨hend, hbracket⟩ := Kind.isFixed_eq_false hkind
  exact ⟨hfull ▸ h.fullStart, hstart ▸ h.start, hstart ▸ hstop, fun h => absurd h hend,
    fun h => absurd (hbracket.symm.trans h) Bool.false_ne_true⟩

theorem Sound.joinGreater (h : t.Sound s) : (t.joinGreater s).Sound s := by
  rw [Token.joinGreater]
  split
  · exact ⟨h.fullStart, h.start, h.stop, h.ending, h.bracket⟩
  · dsimp only
    split
    · next hmark =>
      have hjoined : ∀ m ∈ joinedMarks, m.2.isFixed = false := by decide
      obtain ⟨m, hm, hmark⟩ := Source.longestMark_spec hmark
      cases hmark
      exact h.of_isFixed rfl rfl (Nat.le_add_right _ _) (hjoined m hm)
    · exact ⟨h.fullStart, h.start, h.stop, h.ending, h.bracket⟩

theorem Sound.cutTo (h : t.Sound s) {k : Kind} (hk : k.isFixed = false) : (t.cutTo k).Sound s :=
  h.of_isFixed rfl rfl (Nat.le_succ _) hk

theorem Sound.asTemplate (h : t.Sound s) (report : Bool) : (t.asTemplate s report).Sound s :=
  h.of_isFixed rfl rfl (Nat.le_of_succ_le (s.le_templateBody _ _ (t.start + 1)))
    (Source.isFixed_template report t.start)

theorem Sound.asPattern (h : t.Sound s) : (t.asPattern s).Sound s :=
  h.of_isFixed rfl rfl (s.le_pattern t.start) rfl

theorem sound_markupText {i : Nat} (hi : s.skipTrivia 0 ≤ i) : (t.markupText s i).Sound s := by
  have hsound : ∀ t' : Token, t'.fullStart = i → t'.start = i → i ≤ t'.stop → t'.kind.isFixed = false →
      t'.Sound s := by
    intro t' hfull hstart hstop hkind
    obtain ⟨hend, hbracket⟩ := Kind.isFixed_eq_false hkind
    exact ⟨.inr (hfull ▸ hi), hstart ▸ hi, hstart ▸ hstop, fun h => absurd h hend,
      fun h => absurd (hbracket.symm.trans h) Bool.false_ne_true⟩
  rw [markupText]
  dsimp only
  split
  · next hsize => exact ⟨.inr hi, hi, Nat.le_refl i, fun _ => Nat.le_trans hsize (s.le_skipTrivia i), nofun⟩
  · split
    · exact hsound _ rfl rfl (Nat.le_add_right _ _) rfl
    · split
      · exact hsound _ rfl rfl (Nat.le_add_right _ _) rfl
      · split
        · next hbrace =>
          exact ⟨.inr hi, hi, Nat.le_succ i, nofun, fun _ => ⟨(Source.skipTrivia_of_brace hbrace).symm, rfl⟩⟩
        · exact hsound _ rfl rfl (s.le_markupBody _ _ _ i) (Source.isFixed_markupBody _ _ _ _)

theorem Sound.rereadText (h : t.Sound s) :
    (if t.fullStart = 0 then t else t.markupText s t.fullStart).Sound s := by
  split
  · exact h
  · next hfull => exact sound_markupText (h.fullStart.resolve_left hfull)

theorem le_lengthen (s : Source) (fuel i : Nat) : i ≤ (asMarkupName.lengthen s fuel i).stop := by
  induction fuel generalizing i with
  | zero => exact Nat.le_refl i
  | succ fuel ih =>
    rw [asMarkupName.lengthen]
    dsimp only
    split
    · exact Nat.le_of_succ_le (ih (i + 1))
    · split
      · exact Nat.le_refl i
      · exact Nat.le_trans (s.le_nameParts i) (ih _)

theorem Sound.asMarkupName (h : t.Sound s) : (t.asMarkupName s).Sound s := by
  rw [Token.asMarkupName]
  split
  · exact h.of_isFixed rfl rfl (Nat.le_trans h.stop (le_lengthen s _ t.stop)) (Kind.isFixed_ofWord _)
  · exact ⟨h.fullStart, h.start, h.stop, h.ending, h.bracket⟩

theorem Sound.markupValue (h : t.Sound s) (d : Dialect) : (t.markupValue s d).Sound s := by
  rw [Token.markupValue]
  split
  · exact ⟨.inr h.le_stop, h.le_stop, Nat.le_of_lt (s.lt_quoted true t.stop), nofun, nofun⟩
  · exact Source.sound_token d t (.inr h.le_stop)

end Token
end LintRepair.Syntax
