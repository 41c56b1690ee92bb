import LintRepair.Yaml.Lexeme

/-!
# Cutting a YAML text into lexemes

The scanner knows the indentation that the next line needs to go on with the current value, whether it is
inside a flow collection, and whether a flow key has just ended.
-/
namespace LintRepair.Yaml

structure Scanner where
  rest : List Char
  /-- The lexemes so far, the last one first. -/
  found : List Lexeme := []
  /-- The indentation from which on a line continues the current value. -/
  indentNext : Nat := 0
  /-- The indentation of the current value. -/
  indentValue : Nat := 0
  /-- A quoted key or a flow collection has just ended, so that a colon may follow directly. -/
  flowKey : Bool := false
  flowLevel : Nat := 0
deriving Repr, Inhabited

/-- What the scanner looks at next. -/
inductive ScanState where
  | stream
  | document
  | flow
deriving DecidableEq, Repr, Inhabited

abbrev Scan := StateM Scanner

namespace Scan

def peek : Scan (Option Char) := return (← get).rest.head?

/-- The character after the next one. -/
def peekSecond : Scan (Option Char) := return (← get).rest.tail.head?

/-- Takes characters as a lexeme of a given kind. -/
def pushAs (kind : LexemeKind) (n : Nat) : Scan Unit :=
  modify fun s => { s with rest := s.rest.drop n, found := ⟨kind, s.rest.take n⟩ :: s.found }

/-- Takes characters as a lexeme whose kind they tell themselves; nothing for none. -/
def push (n : Nat) : Scan Unit := do
  let source := (← get).rest.take n
  if !source.isEmpty then pushAs (.ofSource source) n

def pushMark (kind : LexemeKind) : Scan Unit := pushAs kind 0

/-- Takes the characters up to the first one, or the end, that satisfies `p`. -/
def pushUntil (p : Option Char → Bool) : Scan Unit := do
  push ((← get).rest.takeWhile fun c => !p (some c)).length

/-- Takes blanks and says how many. -/
def pushSpaces (tabs : Bool) : Scan Nat := do
  let n := ((← get).rest.takeWhile fun c => c = ' ' || (tabs && c = '\t')).length
  push n
  return n

/-- Takes a line end and says whether there was one. -/
def pushNewline : Scan Bool := do
  match (← get).rest with
  | '\n' :: _ => push 1; return true
  | '\r' :: '\n' :: _ => push 2; return true
  | _ => return false

/-- The rest of the line without its end. -/
def restOfLine (cs : List Char) : List Char :=
  let line := cs.takeWhile (· ≠ '\n')
  if line.length < cs.length && line.getLast? = some '\r' then line.dropLast else line

def line : Scan (List Char) := return restOfLine (← get).rest

end Scan

/-- Whether a line that begins with these characters goes on with a value; if it does, the characters of
its indentation. -/
def continuation (indentNext : Nat) (cs : List Char) : Option Nat :=
  if 0 < indentNext then
    let indent := (cs.takeWhile (· = ' ')).length
    match cs.drop indent with
    | '\r' :: '\n' :: _ => some (indent + 1)
    | '\n' :: _ => some indent
    | _ => if indentNext ≤ indent then some indent else none
  else
    let marker := cs.take 3 = ['-', '-', '-'] || cs.take 3 = ['.', '.', '.']
    if marker && isEmptyAt cs[3]? then none else some 0

/-- The number of characters of a plain scalar: it ends before a colon that a blank follows, before a
comment, in a flow collection before an indicator, and at a line that does not continue it. Trailing
blanks do not count. -/
def plainLength (inFlow : Bool) (indentNext : Nat) (cs : List Char) : Nat := go cs.length cs 0 0
where
  go : Nat → List Char → Nat → Nat → Nat
    | 0, _, _, stop => stop
    | _, [], _, stop => stop
    | fuel + 1, ':' :: next, i, stop =>
      if isEmptyAt next.head? || (inFlow && isFlowIndicator next.head?) then stop
      else go fuel next (i + 1) (i + 1)
    | fuel + 1, c :: next, i, stop =>
      if isEmptyAt (some c) then
        let (lineEnd, next, i, stop) := match c, next with
          | '\r', '\n' :: next => (true, next, i + 2, stop)
          | '\r', next => (false, next, i + 1, i + 1)
          | c, next => (c = '\n', next, i + 1, stop)
        if next.head? = some '#' || (inFlow && isFlowIndicator next.head?) then stop
        else if lineEnd then
          match continuation indentNext next with
          | none => stop
          | some n => go fuel (next.drop (n - 1)) (i + (n - 1)) stop
        else go fuel next i stop
      else if inFlow && isFlowIndicator (some c) then stop
      else go fuel next (i + 1) (i + 1)

/-- The number of characters up to and with the closing quote, if there is one. -/
def closingQuote (quote : Char) : List Char → Option Nat
  | [] => none
  | '\\' :: [] => none
  | '\\' :: c :: rest =>
    if quote = '"' then (closingQuote quote rest).map (· + 2) else (closingQuote quote (c :: rest)).map (· + 1)
  | c :: rest =>
    if c = quote then
      match rest with
      | d :: rest => if quote = '\'' && d = quote then (closingQuote quote rest).map (· + 2) else some 1
      | [] => some 1
    else (closingQuote quote rest).map (· + 1)

/-- The offset of the first line feed after which the text is not indented enough. -/
def unindentedLine (indentNext : Nat) (whole : List Char) (limit : Nat) : Nat → Nat → Option Nat
  | 0, _ => none
  | fuel + 1, start =>
    let here := whole.drop start
    let ahead := (here.takeWhile (· ≠ '\n')).length
    if ahead < here.length && start + ahead < limit then
      match continuation indentNext (here.drop (ahead + 1)) with
      | none => some (start + ahead)
      | some n => unindentedLine indentNext whole limit fuel (start + ahead + 1 + n)
    else none

/-- The number of characters of a quoted scalar. One that is not closed takes all the rest, one with a line
that is not indented enough ends before that line. -/
def quotedLength (indentNext : Nat) (cs : List Char) : Nat :=
  match cs with
  | [] => 0
  | quote :: rest =>
    match closingQuote quote rest with
    | none => cs.length
    | some n =>
      match unindentedLine indentNext cs n cs.length 0 with
      | none => n + 1
      | some at_ => if (cs.take at_).getLast? = some '\r' then at_ - 1 else at_

/-- The indentation that a block scalar's header gives, less one, and whether trailing lines are kept. -/
def headerSigns : List Char → Option Nat × Bool → Option Nat × Bool
  | '+' :: rest, (indent, _) => headerSigns rest (indent, true)
  | '-' :: rest, signs => headerSigns rest signs
  | c :: rest, (indent, keep) =>
    if '0' < c && c ≤ '9' then headerSigns rest (some (c.toNat - '1'.toNat), keep) else (indent, keep)
  | [], signs => signs

/-- Over the leading blank lines of a block scalar: the characters up to the first line with content, and
that line's indentation. -/
def leadingLines : List Char → Nat → Nat → Nat → Nat × Nat
  | ' ' :: rest, i, start, indent => leadingLines rest (i + 1) start (indent + 1)
  | '\n' :: rest, i, _, _ => leadingLines rest (i + 1) (i + 1) 0
  | '\r' :: '\n' :: rest, i, _, _ => leadingLines rest (i + 2) (i + 2) 0
  | _, _, start, indent => (start, indent)

/-- Goes on over the lines that continue a block scalar; past the end of the text when all do. -/
def continuedLines (indentNext : Nat) (cs : List Char) : Nat → Nat → Nat
  | 0, start => start
  | fuel + 1, start =>
    match continuation indentNext (cs.drop start) with
    | none => start
    | some n =>
      let here := cs.drop (start + n)
      let ahead := (here.takeWhile (· ≠ '\n')).length
      if ahead < here.length then continuedLines indentNext cs fuel (start + n + ahead + 1)
      else cs.length + 1

/-- Drops trailing lines of at most `indent` blanks; `back` is the text before the last line feed, backwards. -/
def trimLines (indent : Nat) : Nat → List Char → Nat → Nat
  | 0, _, stop => stop
  | fuel + 1, back, stop =>
    let (back, cr) := match back with
      | '\r' :: back => (back, 1)
      | back => (back, 0)
    let blanks := (back.takeWhile (· = ' ')).length
    match back.drop blanks with
    | '\n' :: back =>
      if blanks ≤ indent then trimLines indent fuel back (stop - 1 - cr - blanks) else stop
    | _ => stop

/-- The characters of a block scalar's lines, and the indentation that they need. -/
def blockLength (explicit : Option Nat) (keep : Bool) (indentNext : Nat) (cs : List Char) : Nat × Nat :=
  let (start, indent) := leadingLines cs 0 0 0
  let (stop, indentNext) :=
    if indentNext ≤ indent then
      let needed := match explicit with
        | none => indent
        | some n => n + if indentNext = 0 then 1 else indentNext
      (continuedLines needed cs (cs.length + 1) start, needed)
    else (start, indentNext)
  let blanks := ((cs.drop stop).takeWhile (· = ' ')).length
  if (cs.drop (stop + blanks)).head? = some '\t' then
    (stop + ((cs.drop stop).takeWhile fun c => isEmptyAt (some c)).length, indentNext)
  else if keep then (stop, indentNext)
  else (trimLines indent cs.length (cs.take (stop - 1)).reverse stop, indentNext)

def isTagChar (c : Char) : Bool := c.isAlphanum || "-#;/?:@&=+$_.!~*'()".contains c

def isHexDigit (c : Char) : Bool := c.isDigit || ('a' ≤ c && c ≤ 'f') || ('A' ≤ c && c ≤ 'F')

/-- The number of characters of a tag behind its exclamation mark. -/
def tagLength : List Char → Nat
  | '<' :: rest =>
    let inside := (rest.takeWhile fun c => !isEmptyAt (some c) && c ≠ '>').length
    1 + inside + if (rest.drop inside).head? = some '>' then 1 else 0
  | cs => go cs.length cs
where
  go : Nat → List Char → Nat
    | 0, _ => 0
    | fuel + 1, '%' :: a :: b :: rest => if isHexDigit a && isHexDigit b then 3 + go fuel rest else 0
    | fuel + 1, c :: rest => if isTagChar c then 1 + go fuel rest else 0
    | _, [] => 0

namespace Scan

/-- Tags, anchors and the indicators that a blank follows. -/
def indicators : Nat → Scan Unit
  | 0 => return
  | fuel + 1 => do
    match (← get).rest with
    | '!' :: rest => push (1 + tagLength rest)
    | '&' :: _ => pushUntil endsName
    | c :: rest =>
      let inFlow := 0 < (← get).flowLevel
      if (c = '-' || c = '?' || c = ':')
          && (isEmptyAt rest.head? || (inFlow && isFlowIndicator rest.head?)) then
        modify fun s =>
          if inFlow then { s with flowKey := false } else { s with indentNext := s.indentValue + 1 }
        push 1
      else return
    | [] => return
    let _ ← pushSpaces true
    indicators fuel

def plain : Scan ScanState := do
  let s ← get
  let inFlow := 0 < s.flowLevel
  pushAs .scalar (plainLength inFlow s.indentNext s.rest)
  return if inFlow then .flow else .document

def quoted : Scan ScanState := do
  let s ← get
  push (quotedLength s.indentNext s.rest)
  return if 0 < s.flowLevel then .flow else .document

/-- The indicators that open block collections at the beginning of a line. -/
def blockStart : Nat → Scan ScanState
  | 0 => return .document
  | fuel + 1 => do
    match ← peek with
    | some c =>
      if (c = '-' || c = '?' || c = ':') && isEmptyAt (← peekSecond) then
        push 1
        let n ← pushSpaces true
        modify fun s => { s with indentNext := s.indentValue + 1, indentValue := s.indentValue + 1 + n }
        blockStart fuel
      else return .document
    | none => return .document

def lineStart : Scan ScanState := do
  let s ← get
  let marker := s.rest.take 3
  if (marker = ['-', '-', '-'] || marker = ['.', '.', '.']) && isEmptyAt s.rest[3]? then
    push 3
    modify ({ · with indentValue := 0, indentNext := 0 })
    return if marker = ['-', '-', '-'] then .document else .stream
  else
    let n ← pushSpaces false
    let second ← peekSecond
    modify fun s =>
      { s with indentValue := n, indentNext := if n < s.indentNext && !isEmptyAt second then n else s.indentNext }
    blockStart s.rest.length

def blockScalar : Scan ScanState := do
  let (explicit, keep) := headerSigns (← get).rest.tail (none, false)
  pushUntil fun c => isEmptyAt c || c = some '#'
  let _ ← pushSpaces true
  push (← line).length
  let _ ← pushNewline
  let s ← get
  let (n, indentNext) := blockLength explicit keep s.indentNext s.rest
  modify ({ · with indentNext })
  pushAs .scalar n
  lineStart

def openFlow : Scan ScanState := do
  push 1
  modify fun s => { s with flowKey := false, flowLevel := s.flowLevel + 1 }
  return .flow

def documentState : Scan ScanState := do
  let _ ← pushSpaces true
  indicators (← get).rest.length
  let line ← line
  match line.head? with
  | none | some '#' =>
    push line.length
    let _ ← pushNewline
    lineStart
  | some '\x7b' | some '[' => openFlow
  | some '\x7d' | some ']' =>
    push 1
    return .document
  | some '*' =>
    pushUntil endsName
    return .document
  | some '"' | some '\'' => quoted
  | some '|' | some '>' => blockScalar
  | some _ => plain

/-- Blanks and line ends inside a flow collection; the indentation of the last line, if there was a new one. -/
def flowSpace : Nat → Option Nat → Scan (Option Nat)
  | 0, indent => return indent
  | fuel + 1, indent => do
    let lineEnd ← pushNewline
    let (n, indent) ← do
      if lineEnd then
        let n ← pushSpaces false
        modify ({ · with indentValue := n })
        pure (n, some n)
      else pure (0, indent)
    let m ← pushSpaces true
    if lineEnd || 0 < n + m then flowSpace fuel indent else return indent

def commas : Nat → Scan Unit
  | 0 => return
  | fuel + 1 => do
    if (← peek) = some ',' then
      push 1
      let _ ← pushSpaces true
      modify ({ · with flowKey := false })
      commas fuel

/-- Whether the line at this point ends an open flow collection: it is indented too little, or it begins
with a document marker. -/
def leavesFlow (s : Scanner) (indent : Option Nat) (line : List Char) : Bool :=
  match indent with
  | none => false
  | some n =>
    let marker := line.take 3 = ['-', '-', '-'] || line.take 3 = ['.', '.', '.']
    let closes := n + 1 = s.indentNext && s.flowLevel = 1
      && (line.head? = some ']' || line.head? = some '\x7d')
    ((n < s.indentNext && line.head? ≠ some '#') || (n = 0 && marker && isEmptyAt (line.drop 3).head?)) && !closes

def flowState : Scan ScanState := do
  let indent ← flowSpace ((← get).rest.length + 1) none
  let line ← line
  if leavesFlow (← get) indent line then
    modify ({ · with flowLevel := 0 })
    pushMark .flowErrorEnd
    lineStart
  else
    commas line.length
    indicators (← get).rest.length
    let line ← Scan.line
    match line.head? with
    | none => return .flow
    | some '#' =>
      push line.length
      return .flow
    | some '\x7b' | some '[' => openFlow
    | some '\x7d' | some ']' =>
      push 1
      modify fun s => { s with flowKey := true, flowLevel := s.flowLevel - 1 }
      return if 0 < (← get).flowLevel then .flow else .document
    | some '*' =>
      pushUntil endsName
      return .flow
    | some '"' | some '\'' =>
      modify ({ · with flowKey := true })
      quoted
    | some c =>
      let next ← peekSecond
      let wasKey := (← get).flowKey
      modify ({ · with flowKey := false })
      if c = ':' && (wasKey || isEmptyAt next || next = some ',') then
        push 1
        let _ ← pushSpaces true
        return .flow
      else plain

/-- The length of a directive: it ends before a comment and before trailing blanks. -/
def directiveLength (line : List Char) : Nat :=
  let isBlank (c : Char) : Bool := c = ' ' || c = '\t'
  let rec beforeComment : List Char → Bool → Nat
    | [], _ => 0
    | c :: rest, blank => if c = '#' && blank then 0 else 1 + beforeComment rest (isBlank c)
  let body := line.take (beforeComment line false)
  body.length - (body.reverse.takeWhile isBlank).length

def streamState : Scan ScanState := do
  if (← peek) = some '\uFEFF' then push 1
  let line ← line
  if line.head? = some '%' then
    push (directiveLength line)
    let _ ← pushSpaces true
    push (← Scan.line).length
    return .stream
  else
    let blanks := (line.takeWhile fun c => c = ' ' || c = '\t').length
    match (line.drop blanks).head? with
    | none | some '#' =>
      let n ← pushSpaces true
      push (line.length - n)
      let _ ← pushNewline
      return .stream
    | some _ =>
      pushMark .documentMode
      lineStart

/-- Runs from state to state until the text is used up. -/
def states : Nat → ScanState → Scan Unit
  | 0, _ => return
  | fuel + 1, state => do
    if !(← get).rest.isEmpty then
      let next ← match state with
        | .stream => streamState
        | .document => documentState
        | .flow => flowState
      states fuel next

end Scan

/-- The lexemes of a text. -/
def lexemes (cs : List Char) : List Lexeme :=
  (StateT.run (Scan.states (3 * cs.length + 8) .stream) { rest := cs }).2.found.reverse

end LintRepair.Yaml
