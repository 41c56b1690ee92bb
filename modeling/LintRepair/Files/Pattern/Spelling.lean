import LintRepair.Files.Pattern.Piece

/-!
# Patterns as regular expressions

How each sign of a pattern is spelled: stars and question marks, sets in brackets, groups in parentheses with or
without a sign in front of them, braces, and all signs that mean themselves. A star at the beginning of a name
does not stand for the dot of a hidden one unless hidden names are wanted.
-/
namespace LintRepair.Pattern.Drafting

def isOneOf (cs : String) (c : Option Char) : Bool := c.any fun d => cs.contains d

/-- A text, as the pattern writes it. -/
def pushText (written : String) (spelled : Option String := none) : Drafting Unit :=
  push { kind := .text, written, spelled }

/-! ## Escapes and sets -/

/-- What follows a backslash. Outside of sets it is a text; in a set it is given back to be added. -/
def escape : Drafting (Option String) := do
  match ← peek with
  | none =>
    pushText "\\\\"
    return none
  | some c =>
    if c = '/' || c = '.' || c = ';' then return none
    let run := ((← get).rest.takeWhile (· = '\\')).length
    if 2 < run then skip run
    let value := (if 2 < run && run % 2 = 1 then "\\\\" else "\\") ++ (← advance)
    if (← get).sets = 0 then
      pushText value
      return none
    return some value

/-- A sign in brackets. -/
def inSet (value : String) : Drafting Unit := do
  let p ← last
  let inner := p.written.toList.drop 1
  if value = ":" && inner.contains '[' then
    modifyLast fun p => { p with classed := true }
    if inner.contains ':' then
      let name := (p.written.toList.reverse.takeWhile (· ≠ '[')).reverse
      if let some spelled := namedClass? (String.ofList (name.drop 1)) then
        modifyLast fun p => { p with written := withoutLast (name.length + 1) p.written ++ spelled }
        revise
        skip 1
        let pieces := (← get).pieces
        if pieces.length = 2 && (pieces[1]?.any fun q => q.spelling.isEmpty) then
          modify fun s => { s with pieces := s.pieces.take 1 ++ (s.pieces.drop 1).map (·.extend something) }
        return
  let next ← peek
  let opensSet := p.written = "[" || p.written = "[^"
  let value :=
    if (value = "[" && next ≠ some ':') || (value = "-" && next = some ']') || (value = "]" && opensSet) then
      "\\" ++ value
    else if value = "!" && p.written = "[" then "^"
    else value
  modifyLast fun p => { p with written := p.written ++ value }
  append value

/-- The end of a set. Sets without any operator may also be meant as a text. -/
def closeSet : Drafting Unit := do
  let p ← last
  if (p.kind = .bracket && p.written.length = 1) || (← get).sets = 0 then pushText "]" (some "\\]")
  else
    closes .set
    let inner := p.written.toList.drop 1
    let value := if !p.classed && inner.head? = some '^' && !inner.contains '/' then "/]" else "]"
    let whole := p.written ++ value
    modifyLast fun p => { p with written := whole }
    append value
    if !inner.any isOperator then
      cut whole.length
      let both := "(?:" ++ literal whole ++ "|" ++ whole ++ ")"
      modifyLast fun p => { p with written := both }
      append both

/-! ## Groups -/

def openSigned (sign : Char) (kind : PieceKind) : Drafting Unit := do
  let s ← get
  let group : SignedGroup := ⟨sign, "", s.groups⟩
  opens .group
  push { kind, written := String.singleton sign, spelled := some (if s.spelled.isEmpty then something else "") }
  let written ← advance
  push { kind := .paren, written, signed := true, spelled := some (if sign = '!' then "(?:(?!(?:" else "(?:") }
  modify fun s => { s with signedGroups := group :: s.signedGroups }

/-- Whether a text is a dot with plain signs behind it. -/
def isExtension : List Char → Bool
  | '.' :: c :: cs => (c :: cs).all fun d => d ≠ '\\' && d ≠ '/' && d ≠ '.'
  | _ => false

/-- The end of a group behind a sign. A name that a group excludes is compared to its end when nothing but an
extension follows. -/
def closeSigned (nested : Bool → String → String) (g : SignedGroup) : Drafting Unit := do
  let s ← get
  let rest := s.rest
  let deep := 1 < g.inner.length && g.inner.contains '/'
  let name := if deep then anyDepth s.hidden else anyName
  let spelled :=
    if g.sign ≠ '!' then ")" ++ String.singleton g.sign
    else if g.inner.contains '*' && isExtension rest then
      ")" ++ nested s.hidden (String.ofList rest) ++ ")" ++ name ++ ")"
    else if deep || rest.all (· = ')') then ")$))" ++ name
    else "))" ++ anyName ++ ")"
  push { kind := .paren, written := ")", signed := true, spelled := some spelled }
  closes .group

def closeGroup (nested : Bool → String → String) : Drafting Unit := do
  let s ← get
  match s.signedGroups with
  | g :: outer =>
    if s.groups = g.depth + 1 then
      modify fun s => { s with signedGroups := outer }
      closeSigned nested g
      return
  | [] => pure ()
  push { kind := .paren, written := ")", spelled := some (if s.groups = 0 then "\\)" else ")") }
  closes .group

/-! ## Braces -/

/-- A set from one end to the other, if there is one, or the ends themselves. -/
def rangeSpelling (ends : List String) : String :=
  let ends := ends.mergeSort unitsLe
  let set := "[" ++ String.intercalate "-" ends ++ "]"
  if (Expression.read? (Text.ofString set)).isSome then set else String.intercalate ".." (ends.map literal)

def openBrace : Drafting Unit := do
  opens .braces
  modify fun s =>
    { s with openBraces := { spelledBefore := s.spelled.length, piecesBefore := s.pieces.length } :: s.openBraces }
  push { kind := .brace, written := "\x7b", spelled := some "(" }

/-- The spelling of a piece in braces that mean themselves. -/
def bareSpelling (p : Piece) : String :=
  match p.spelled with
  | none | some "" => p.written
  | some s => s

/-- The end of braces. Without commas and ranges they mean themselves. -/
def closeBrace : Drafting Unit := do
  let s ← get
  match s.openBraces with
  | [] => pushText "\x7d" (some "\x7d")
  | b :: outer =>
    let mut piece : Piece := { kind := .brace, written := "\x7d", spelled := some ")" }
    if b.hasDots then
      let inside := s.pieces.takeWhile (·.kind ≠ .brace)
      let ends := (inside.filter (·.kind ≠ .dots)).reverse.map (·.written)
      modify fun s => { s with pieces := s.pieces.drop (inside.length + 1) }
      revise
      piece := { piece with spelled := some (rangeSpelling ends) }
    else if !b.hasComma then
      let inside := s.pieces.length - 1 - b.piecesBefore
      let bare (p : Piece) : Piece := { p with written := "\\\x7b", spelled := some "\\\x7b" }
      let pieces := s.pieces.modify inside bare
      let spelled := String.join ((pieces.take (inside + 1)).reverse.map bareSpelling)
      let front := String.ofList (s.spelled.toList.take b.spelledBefore)
      set { s with pieces, spelled := front ++ spelled }
      piece := { piece with written := "\\\x7d", spelled := some "\\\x7d" }
    push piece
    closes .braces
    modify fun s => { s with openBraces := outer }

/-- Marks the innermost braces. -/
def markBrace (f : OpenBrace → OpenBrace) : Drafting Unit :=
  modify fun s => { s with openBraces := match s.openBraces with
    | b :: outer => f b :: outer
    | [] => [] }

def comma : Drafting Unit := do
  let s ← get
  let separates := !s.openBraces.isEmpty && s.opened.head? = some .braces
  if separates then markBrace fun b => { b with hasComma := true }
  push { kind := .comma, written := ",", spelled := some (if separates then "|" else ",") }

/-! ## Slashes, dots and question marks -/

def slashSign : Drafting Unit := do
  let s ← get
  if (← last).kind = .dot && s.read = s.start + 2 then
    set { s with start := s.read, spelled := "", pieces := s.pieces.drop 1 }
  else push { kind := .slash, written := "/", spelled := some slash }

def dotSign : Drafting Unit := do
  let s ← get
  let p ← last
  if 0 < s.braces && p.kind = .dot then
    modifyLast fun p =>
      { p with kind := .dots, spelled := some ((if p.written = "." then dot else p.spelling) ++ "."),
               written := p.written ++ "." }
    markBrace fun b => { b with hasDots := true }
  else if s.groups + s.braces = 0 && p.kind ≠ .opening && p.kind ≠ .slash then pushText "." (some dot)
  else push { kind := .dot, written := ".", spelled := some dot }

/-- Whether a text begins with a look behind, or with a name in angle brackets. -/
def opensBehind : List Char → Bool
  | '<' :: c :: more =>
    c = '=' || c = '!' ||
      (let name := (c :: more).takeWhile fun d => d.isAlphanum || d = '_'
       !name.isEmpty && ((c :: more).drop name.length).head? = some '>')
  | _ => false

def questionSign : Drafting Unit := do
  let p ← last
  let s ← get
  let next ← peek
  if p.written ≠ "(" && next = some '(' && (← peek 1) ≠ some '?' then openSigned '?' .question
  else if p.kind = .paren then
    let plain := (p.written = "(" && !isOneOf "!=<:" next) || (next = some '<' && !s.rest.zipIdx.any fun (_, n) => opensBehind (s.rest.drop n))
    pushText "?" (some (if plain then "\\?" else "?"))
  else
    let atName := p.kind = .slash || p.kind = .opening
    push { kind := .question, written := "?", spelled := some (if !s.hidden && atName then "[^.\\/]" else nameSign) }

def plusSign : Drafting Unit := do
  let p ← last
  if (← peek) = some '(' && (← peek 1) ≠ some '?' then openSigned '+' .plus
  else if p.written = "(" then push { kind := .plus, written := "+", spelled := some "\\+" }
  else if p.kind = .bracket || p.kind = .paren || p.kind = .brace || 0 < (← get).groups then
    push { kind := .plus, written := "+" }
  else push { kind := .plus, written := "\\+" }

/-! ## Negation and texts -/

/-- The signs of negation at the beginning; an even number of them is none. -/
def negate : Drafting Unit := do
  let rest := (← get).rest
  let isSign (tail : List Char) : Bool :=
    tail.head? = some '!' && (tail[1]? ≠ some '(' || tail[2]? = some '?')
  let more := ((List.range rest.length).takeWhile fun n => isSign (rest.drop n)).length
  skip more
  modify fun s => { s with start := s.start + more }
  if more % 2 = 0 then modify fun s => { s with negated := true, start := s.start + 1 }

/-- The signs of which a text goes on. -/
def isPlain (c : Char) : Bool := !"@![].,$*+?^\x7b\x7d()|\\/".contains c

def plainText (value : String) : Drafting Unit := do
  let value := if value = "$" || value = "^" then "\\" ++ value else value
  let run := (← get).rest.takeWhile isPlain
  skip run.length
  pushText (value ++ String.ofList run)

/-! ## Stars -/

/-- How often names of any depth are asked for once more. -/
def repeatedDepth : Nat → List Char → Nat
  | 0, _ => 0
  | fuel + 1, '/' :: '*' :: '*' :: rest =>
    match rest with
    | '/' :: _ | [] => repeatedDepth fuel rest + 1
    | _ => 0
  | _ + 1, _ => 0

/-- Makes the star that is the last piece stand for names of any depth. -/
def deepen (spelled : String) : Drafting Unit :=
  modifyLast fun p => { p with kind := .depth, written := p.written ++ "*", spelled := some spelled }

/-- A star behind a star. At the beginning of a name the two stand for names of any depth. -/
def secondStar : Drafting Unit := do
  let s ← get
  match s.pieces with
  | star :: prior :: before =>
    let isStart := prior.kind = .slash || prior.kind = .opening
    let afterStar := before.head?.any fun p => p.kind = .run || p.kind = .depth
    let inBrace := 0 < s.braces && (prior.kind = .comma || prior.kind = .brace)
    if !isStart && prior.kind ≠ .paren && !inBrace then
      push { kind := .run, written := "*", spelled := some "" }
    else
      skip (3 * repeatedDepth s.rest.length s.rest)
      let rest := (← get).rest
      let deep := anyDepth s.hidden
      let below := prior.kind = .slash && !before.head?.any (·.kind = .opening)
      /- The slash in front of the stars becomes a part of what they stand for. -/
      let joinSlash (spelled : String) : Drafting Unit := do
        cut (prior.spelling ++ star.spelling).length
        deepen spelled
        let joined := { prior with spelled := some ("(?:" ++ prior.spelling) }
        modify fun s => { s with pieces := s.pieces.take 1 ++ joined :: s.pieces.drop 2 }
        append (joined.spelling ++ spelled)
      if prior.kind = .opening && rest.isEmpty then
        deepen deep
        modify fun s => { s with spelled := deep }
      else if below && !afterStar && rest.isEmpty then joinSlash (deep ++ "|$)")
      else if below && rest.head? = some '/' then
        joinSlash (deep ++ slash ++ "|" ++ slash ++ (if rest.length = 1 then ")" else "|$)"))
        skip 1
        push { kind := .slash, written := "/", spelled := some "" }
      else if prior.kind = .opening && rest.head? = some '/' then
        let spelled := "(?:^|" ++ slash ++ "|" ++ deep ++ slash ++ ")"
        deepen spelled
        modify fun s => { s with spelled := spelled }
        skip 1
        push { kind := .slash, written := "/", spelled := some "" }
      else
        cut star.spelling.length
        deepen deep
        append deep
  | _ => pure ()

/-- A star with none in front of it. -/
def firstStar : Drafting Unit := do
  let s ← get
  let p ← last
  if s.read = s.start + 1 || p.kind = .slash || p.kind = .dot then
    let guard :=
      if p.kind = .dot then "(?!\\.\x7b0,1\x7d(?:\\/|$))"
      else if s.hidden then "(?!" ++ dots ++ ")"
      else notHidden
    let guard := if (← peek) = some '*' then guard else guard ++ something
    append guard
    modifyLast (·.extend guard)
  push { kind := .run, written := "*", spelled := some anyName }

def starSign : Drafting Unit := do
  let p ← last
  if p.kind = .depth || p.worn then
    modifyLast fun p =>
      { p with kind := .run, worn := true, written := p.written ++ "*", spelled := some anyName }
    revise
  else if (← peek) = some '(' && (← peek 1).any (· ≠ '?') then openSigned '*' .run
  else if p.kind = .run then secondStar
  else firstStar

/-! ## Whole patterns -/

/-- Reads the next sign. -/
def sign (nested : Bool → String → String) : Drafting Unit := do
  let first ← advance
  if first = "\x00" then return
  let mut value := first
  if first = "\\" then
    match ← escape with
    | none => return
    | some escaped => value := escaped
  let s ← get
  let p ← last
  if 0 < s.sets && (value ≠ "]" || p.written = "[" || p.written = "[^") then
    inSet value
    return
  if s.quoted && value ≠ "\"" then
    let meant := literal value
    modifyLast fun p => { p with written := p.written ++ meant }
    append meant
    return
  let isSigned := (← peek) = some '(' && (← peek 1) ≠ some '?'
  match value with
  | "\"" => modify fun s => { s with quoted := !s.quoted }
  | "(" => do
    opens .group
    push { kind := .paren, written := "(" }
  | ")" => closeGroup nested
  | "[" =>
    if s.rest.contains ']' then do
      opens .set
      push { kind := .bracket, written := "[" }
    else push { kind := .bracket, written := "\\[" }
  | "]" => closeSet
  | "\x7b" => openBrace
  | "\x7d" => closeBrace
  | "|" => pushText "|"
  | "," => comma
  | "/" => slashSign
  | "." => dotSign
  | "?" => questionSign
  | "!" =>
    if isSigned || ((← peek) = some '(' && !isOneOf "!=<:" (← peek 2)) then openSigned '!' .exclusion
    else if s.read = 1 then negate
    else plainText "!"
  | "+" => plusSign
  | "@" =>
    if isSigned then push { kind := .at, written := "@", signed := true, spelled := some "" } else pushText "@"
  | "*" => starSign
  | other => plainText other

def signs (nested : Bool → String → String) : Nat → Drafting Unit
  | 0 => pure ()
  | fuel + 1 => do
    if (← get).rest.isEmpty then return
    sign nested
    signs nested fuel

/-- What is open at the end means itself. -/
def ending : Drafting Unit := do
  let s ← get
  let escaped := Nat.repeat (escapeLast '[') s.sets s.spelled
  let escaped := Nat.repeat (escapeLast '(') s.groups.toNat escaped
  let escaped := Nat.repeat (escapeLast '\x7b') s.braces escaped
  set { s with spelled := escaped, sets := 0, groups := min s.groups 0, braces := 0 }
  let p ← last
  if p.kind = .run || p.kind = .bracket then push { kind := .ending, written := "", spelled := some "\\/?" }

end Drafting

/-- A pattern without the dot that stands for the directory it starts from. -/
def withoutDot (pattern : String) : String := if pattern.startsWith "./" then (pattern.drop 2).copy else pattern

/-- A shorter pattern for patterns of stars that say the same. -/
def shortened : String → String
  | "***" => "*"
  | "**/**" | "**/**/**" => "**"
  | pattern => pattern

/-- The spelling of a pattern, sign by sign, and whether it is negated. Patterns in a pattern are read with less
`fuel`. -/
def draft : Nat → Bool → String → String × Bool
  | 0, _, _ => ("", false)
  | fuel + 1, hidden, pattern =>
    let signs := (withoutDot (shortened pattern)).toList
    let nested (hidden : Bool) (pattern : String) : String := (draft fuel hidden pattern).1
    let work : Drafting Unit := do
      Drafting.signs nested signs.length
      Drafting.ending
    let s := (work.run { hidden, rest := signs }).2
    (Drafting.finished s, s.negated)

/-! ## Common patterns -/

def isWordSign (c : Char) : Bool := c.isAlphanum || c = '_'

/-- The spelling of patterns that are stars, with extensions behind them. -/
def common? (hidden : Bool) : Nat → String → Option String
  | 0, _ => none
  | fuel + 1, pattern =>
    let opening := if hidden then "(?!(?:^|\\/)" ++ dots ++ ")" else notHidden
    let below := if hidden then "(?!" ++ dots ++ ")" else notHidden
    let above := "(?:" ++ opening ++ anyDepth hidden ++ slash ++ ")?"
    match pattern with
    | "*" => some (opening ++ something ++ anyName)
    | ".*" => some (dot ++ something ++ anyName)
    | "*.*" => some (opening ++ anyName ++ dot ++ something ++ anyName)
    | "*/*" => some (opening ++ anyName ++ slash ++ something ++ below ++ anyName)
    | "**" => some (opening ++ anyDepth hidden)
    | "**/*" => some (above ++ below ++ something ++ anyName)
    | "**/*.*" => some (above ++ below ++ anyName ++ dot ++ something ++ anyName)
    | "**/.*" => some (above ++ dot ++ something ++ anyName)
    | _ =>
      let back := pattern.toList.reverse
      let word := (back.takeWhile isWordSign).reverse
      match back.drop word.length with
      | '.' :: front =>
        if word.isEmpty then none
        else (common? hidden fuel (String.ofList front.reverse)).map (· ++ dot ++ String.ofList word)
      | _ => none

/-- The spelling of a pattern of a single name without groups, sets, braces and leading star. -/
def simple (hidden : Bool) (pattern : String) : String :=
  let isWord (c : Char) : Bool := isWordSign c
  let rec go : Nat → Bool → List Char → List Char
    | 0, _, _ => []
    | _, _, [] => []
    | fuel + 1, first, c :: cs =>
      let (escaped, sign, after) := match c, cs with
        | '\\', d :: more => if isWord d then (false, c, cs) else (true, d, more)
        | _, _ => (false, c, cs)
      let run := (after.takeWhile (· = sign)).length
      let rest := after.drop run
      let times (n : Nat) (s : String) : List Char := (List.replicate n s.toList).flatten
      let behind := go fuel false
      if !escaped && isWord c then c :: behind cs
      else if sign = '\\' then
        (if escaped then ['\\'] else []) ++ List.replicate (run + 1) '\\' ++ behind rest
      else if sign = '?' then
        (if escaped then "\\?".toList ++ times run nameSign
         else if first then (if hidden then nameSign else "[^.\\/]").toList ++ times run nameSign
         else times (run + 1) nameSign) ++ behind rest
      else if sign = '.' then times (run + 1) dot ++ behind rest
      else if sign = '*' then
        (if escaped then "\\*".toList ++ (if 0 < run then anyName.toList else []) else anyName.toList) ++ behind rest
      else '\\' :: List.replicate (run + 1) sign ++ behind rest
  String.ofList (go (pattern.length + 1) true pattern.toList)

/-- A spelling in which backslashes that follow each other are one or two. -/
def collapsed (spelled : String) : String :=
  let rec go : Nat → List Char → List Char
    | 0, _ => []
    | _, [] => []
    | fuel + 1, c :: cs =>
      if c ≠ '\\' then c :: go fuel cs
      else
        let run := (cs.takeWhile (· = '\\')).length
        (if run % 2 = 1 then ['\\', '\\'] else ['\\']) ++ go fuel (cs.drop run)
  String.ofList (go (spelled.length + 1) spelled.toList)

/-- Whether a pattern is one that is read as a single name. -/
def isSimple (pattern : String) : Bool :=
  !(pattern.startsWith "*" || pattern.startsWith "!") && !pattern.toList.any fun c => "/()[]\x7b\x7d\"".contains c

/-- The spelling of a pattern, and whether paths that fit it are those that are not wanted. -/
def spelling (hidden : Bool) (pattern : String) : String × Bool :=
  let common := if pattern.startsWith "." || pattern.startsWith "*" then
      common? hidden (pattern.length + 1) (withoutDot (shortened pattern))
    else none
  match common with
  | some s => (s ++ "\\/?", false)
  | none =>
    let name := withoutDot (shortened pattern)
    if isSimple name then (collapsed (simple hidden name), false)
    else draft (pattern.length + 1) hidden pattern

example : (spelling false "src/*.ts").1 = "src\\/(?!\\.)(?=.)[^/]*?\\.ts" := by cbv

/-- The expression that whole paths that fit a pattern are described by. -/
def expression? (hidden : Bool) (pattern : String) : Option Expression :=
  let (spelled, negated) := spelling hidden pattern
  let whole := "^(?:" ++ spelled ++ ")$"
  Expression.read? (Text.ofString (if negated then "^(?!" ++ whole ++ ").*$" else whole))

/-- Whether a path fits an expression, if there is one. -/
def fits (e : Option Expression) (path : String) : Bool := e.any (·.occursIn (Text.ofString path))

end LintRepair.Pattern
