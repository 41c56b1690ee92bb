import LintRepair.Value.Json
import LintRepair.Yaml.Fold
import LintRepair.Yaml.Node

/-!
# Written nodes

A collection that is a key is known by its text in flow style. Scalars keep their style where it is possible in
brackets; a collection that is too wide for a line has a line for each item.
-/
namespace LintRepair.Yaml

/-! ## Scalars -/

/-- The text of a number with one digit before the point and an exponent. -/
def exponentText : Number → String
  | .decimal c e =>
    let ds := Nat.toDigits 10 c.natAbs
    let exponent : Int := if c = 0 then 0 else e + ds.length - 1
    let places := if ds.length < 2 then [] else '.' :: ds.drop 1
    (if c < 0 then "-" else "") ++ String.ofList (ds.take 1 ++ places) ++ "e" ++ (if exponent < 0 then "-" else "+")
      ++ toString exponent.natAbs
  | n => n.text

/-- The text of a number in parts of sixty: at least minutes and seconds. -/
def clockText : Number → String
  | .decimal c e =>
    let places := (-e).toNat
    let unit := Number.tenTo places
    let all := c.natAbs * Number.tenTo e.toNat
    let whole := all / unit
    let seconds := (Number.ofDecimal (whole % 60 * unit + all % unit : Nat) (-(places : Int))).text
    let parts := if whole < 3600 then [toString (whole / 60), seconds]
      else [toString (whole / 3600), toString (whole / 60 % 60), seconds]
    let padded (s : String) : String := if s.length < 2 then "0" ++ s else s
    (if c < 0 then "-" else "") ++ String.intercalate ":" (parts.map padded)
  | n => n.text

/-- The text of a number in its form. -/
def numberText (form : NumberForm) (n : Number) : String :=
  match n with
  | .infinity => ".inf"
  | .negInfinity => "-.inf"
  | .nan => ".nan"
  | .decimal c _ =>
    match form with
    | .whole => n.text
    | .radix base mark => match n.toInt? with
      | some i => (if i < 0 then "-" else "") ++ mark ++ String.ofList (Nat.toDigits base i.natAbs)
      | none => n.text
    | .exponent => exponentText n
    | .point least =>
      let ds := n.text.toList
      let places := (ds.dropWhile (· ≠ '.')).drop 1
      if c < 0 || least ≤ places.length then n.text
      else
        String.ofList (ds ++ (if ds.contains '.' then [] else ['.'])
          ++ List.replicate (least - places.length) '0')
    | .clock _ => clockText n

/-- Where a text is written. -/
structure Pen where
  schema : Schema := .core
  handles : TagHandles := []
  indent : Nat := 0
  /-- The text is a key before a colon. -/
  inKey : Bool := false
  /-- Where the line goes on, if that is not at the indentation. -/
  lead : Option Nat := none

def Pen.fold (p : Pen) (quoted : Bool) (t : Text) : Text :=
  if p.inKey then t else folded t quoted p.indent p.lead

/-- The escape of a unit of text in double quotes, where it is shorter than its code. -/
def codeEscape (code : Text) : Text :=
  let s := Text.toString code
  Text.ofString (match s with
    | "0000" => "\\0"
    | "0007" => "\\a"
    | "000b" => "\\v"
    | "001b" => "\\e"
    | _ => if s.startsWith "00" then "\\x" ++ String.ofList (s.toList.drop 2) else "\\u" ++ s)

/-- The number of line ends that are escaped one behind the other, not counting one before the last quote. -/
def escapedEnds : Text → Nat
  | a :: b :: c :: rest =>
    if a = Text.unit '\\' && b = Text.unit 'n' && c ≠ Text.unit '"' then escapedEnds (c :: rest) + 1 else 0
  | _ => 0

/-- Shorter escapes, and line ends as such where the text is long. -/
def looseEscapes (indent : Nat) (keepsEnds : Bool) : Nat → Text → Text
  | 0, t => t
  | _, [] => []
  | fuel + 1, u :: rest =>
    let further := looseEscapes indent keepsEnds fuel
    let blankBeforeEnd := u = Text.unit ' ' && rest.take 2 = Text.ofString "\\n"
    if blankBeforeEnd then Text.ofString "\\ " ++ further rest
    else if u ≠ Text.unit '\\' then u :: further rest
    else
      match rest with
      | [] => [u]
      | kind :: behind =>
        if kind = Text.unit 'u' then codeEscape (behind.take 4) ++ further (behind.drop 4)
        else if kind = Text.unit 'n' && !keepsEnds && behind.head? ≠ some (Text.unit '"') then
          let more := escapedEnds behind
          let behind := behind.drop (2 * more)
          let blankBehind := behind.head? = some (Text.unit ' ')
          List.replicate (more + 2) (Text.unit '\n') ++ List.replicate indent (Text.unit ' ')
            ++ (if blankBehind then [Text.unit '\\'] else []) ++ further behind
        else u :: kind :: further behind

/-- The length from which on a text in double quotes may go over lines. -/
def longQuoted : Nat := 40

/-- A line of the text may be taken for the start or the end of a document. -/
def hasMarker (cs : List Char) : Bool :=
  (splitLines cs).any fun l =>
    l.head? = some '%' || l.take 3 = ['-', '-', '-'] || l.take 3 = ['.', '.', '.']

def Pen.quotedIndent (p : Pen) (cs : List Char) : Nat :=
  if p.indent ≠ 0 then p.indent else if hasMarker cs then 2 else 0

def Pen.double (p : Pen) (cs : List Char) : Text :=
  let json := Text.ofString (Value.quoted (String.ofList cs))
  let indent := p.quotedIndent cs
  { p with indent }.fold true
    (looseEscapes indent (p.inKey || json.length < longQuoted) (json.length + 1) json)

/-- Line ends with one more behind them, and the next line indented. -/
def moreEnds (indent : Nat) : List Char → List Char
  | [] => []
  | '\n' :: rest =>
    if rest.head? = some '\n' then '\n' :: moreEnds indent rest
    else '\n' :: '\n' :: List.replicate indent ' ' ++ moreEnds indent rest
  | c :: rest => c :: moreEnds indent rest

/-- A blank stands before or behind a line end. -/
def blankAtEnd : List Char → Bool
  | a :: b :: rest => (isBlank a && b = '\n') || (a = '\n' && isBlank b) || blankAtEnd (b :: rest)
  | _ => false

def Pen.single (p : Pen) (cs : List Char) : Text :=
  if (p.inKey && cs.contains '\n') || blankAtEnd cs then p.double cs
  else
    let indent := p.quotedIndent cs
    let doubled := cs.flatMap fun c => if c = '\'' then ['\'', '\''] else [c]
    { p with indent }.fold false (Text.ofChars ('\'' :: moreEnds indent doubled ++ ['\'']))

/-- A text in the quotes that it does not hold itself. -/
def Pen.quoted (p : Pen) (cs : List Char) : Text :=
  if cs.contains '"' && !cs.contains '\'' then p.single cs else p.double cs

/-- Brackets and commas. -/
def isFlowSign (c : Char) : Bool := "[]\x7b\x7d,".toList.contains c

/-- What may not stand in a plain scalar. -/
def hasSigns : List Char → Bool
  | a :: b :: rest =>
    ((a = '\n' || a = ':') && isBlank b) || (isBlank a && b = '\n') || ((a = '\n' || isBlank a) && b = '#')
      || hasSigns (b :: rest)
  | _ => false

/-- A plain scalar may not be the text. -/
def isUnplain (cs : List Char) : Bool :=
  let first := cs.head?
  let isMark (c : Option Char) : Bool := c = some '?' || c = some '-'
  first.any (fun c => "\n\t ,[]\x7b\x7d#&*!|>'\"%@\x60".toList.contains c)
    || (isMark first && cs.length = 1) || (isMark first && (cs[1]?).any isBlank) || hasSigns cs
    || cs.getLast?.any fun c => "\n\t :-".toList.contains c

def Pen.plain (p : Pen) (cs : List Char) : Text :=
  if (p.inKey && cs.contains '\n') || cs.any isFlowSign || isUnplain cs then p.quoted cs
  else if p.inKey && p.indent = 2 && hasMarker cs then p.quoted cs
  else
    let body := moreEnds p.indent cs
    if p.schema.plainDatum true body ≠ .text then p.quoted cs else p.fold false (Text.ofChars body)

/-- Characters that only double quotes can hold. -/
def needsDouble (cs : List Char) : Bool :=
  cs.any fun c => c.toNat < 9 || (10 < c.toNat && c.toNat < 0x20) || (0x7E < c.toNat && c.toNat < 0xA0)

def Pen.text (p : Pen) (style : ScalarStyle) (cs : List Char) : Text :=
  if needsDouble cs then p.double cs
  else match style with
    | .plain => p.plain cs
    | .singleQuoted => p.single cs
    | .doubleQuoted => p.double cs
    | .block => p.quoted cs

def Pen.scalar (p : Pen) (s : Scalar) : Text :=
  match s.datum with
  | .text => p.text s.style s.source
  | .number n form => Text.ofString (numberText form n)
  | .moment t => Text.ofString (Timestamp.shortText t)
  | .null | .bool _ | .bytes _ | .merge => Text.ofChars s.source

/-! ## Nodes -/

/-- A tag as it is written with the handles of its document. -/
def tagText (handles : TagHandles) (tag : String) : String :=
  let escaped (cs : List Char) : List Char := cs.flatMap fun c =>
    if isFlowSign c || c = '!' then '%' :: (Nat.toDigits 16 c.toNat).map Char.toUpper else [c]
  match handles.find? fun h => tag.startsWith h.2 with
  | some (handle, home) => handle ++ String.ofList (escaped (tag.toList.drop home.length))
  | none => if tag.startsWith "!" then tag else "!<" ++ tag ++ ">"

/-- The anchor and the tag of a node. -/
def labelText (handles : TagHandles) (anchor tag : Option String) : Text :=
  Text.ofString (String.intercalate " "
    ((anchor.map ("&" ++ ·)).toList ++ (tag.map (tagText handles)).toList))

/-- Items between brackets, on one line or a line each. -/
def bracketed (indent : Nat) (opening closing : Char) (items : List Text) : Text :=
  let rows := (items.dropLast.map (· ++ [Text.unit ','])) ++ items.getLast?.toList
  let blanks (n : Nat) : Text := List.replicate n (Text.unit ' ')
  let width := rows.foldl (fun n row => n + row.length + 2) 2
  if items.isEmpty then [Text.unit opening, Text.unit closing]
  else if rows.any (·.contains (Text.unit '\n')) || Fold.lineWidth < width then
    Text.unit opening :: rows.flatMap (fun row =>
        if row.isEmpty then [Text.unit '\n'] else Text.unit '\n' :: blanks (indent + 2) ++ row)
      ++ Text.unit '\n' :: blanks indent ++ [Text.unit closing]
  else
    Text.unit opening :: Text.unit ' ' :: Text.join [Text.unit ' '] rows ++ [Text.unit ' ', Text.unit closing]

/-- The node is not a key that can stand before a colon on its line. -/
def isExplicitKey (n : Node) : Bool :=
  match n.bare with
  | .scalar s => s.style = .block
  | _ => true

def isCollection (n : Node) : Bool :=
  match n.bare with
  | .scalar _ | .reference _ => false
  | _ => true

/-- The text of a value is set off from its key by this. -/
def gapBefore (indent : Nat) (explicit : Bool) (value : Node) (text : Text) : Text :=
  let lineEnd := text.findIdx (· = Text.unit '\n')
  if !explicit && isCollection value then
    let blank := text.findIdx (· = Text.unit ' ')
    let isTag (i : Nat) : Bool := text[i]? = some (Text.unit '!')
    let second := if text.head? = some (Text.unit '&') && blank < lineEnd && isTag (blank + 1) then
        blank + 1 + (text.drop (blank + 1)).findIdx (· = Text.unit ' ')
      else blank
    let labelled := (text.head? = some (Text.unit '&') || isTag 0) && (second = text.length || lineEnd < second)
    if lineEnd < text.length && !labelled then Text.unit '\n' :: List.replicate indent (Text.unit ' ')
    else [Text.unit ' ']
  else if text.isEmpty || lineEnd = 0 then []
  else [Text.unit ' ']

/-- The text of a pair of which only the key is written. -/
def keyAlone (explicit : Bool) (key : Text) : Text :=
  if key.isEmpty then Text.ofString "?"
  else if explicit then Text.ofString "? " ++ key
  else key

/-- The text of a key with the colon behind it. -/
def keyHead (indent : Nat) (explicit : Bool) (key : Text) : Text :=
  if explicit then
    Text.ofString "? " ++ key ++ Text.unit '\n' :: List.replicate indent (Text.unit ' ') ++ Text.ofString ":"
  else key ++ Text.ofString ":"

def isScalar (n : Node) : Bool :=
  match n.bare with
  | .scalar _ => true
  | _ => false

mutual
/-- The text of a node, and where a line goes on that labels have begun. -/
def writeNode (p : Pen) : Node → Text × Option Nat
  | .scalar s => (p.scalar s, p.lead)
  | .reference name => (Text.ofString ("*" ++ name), p.lead)
  | .sequence items =>
    (bracketed p.indent '[' ']' (writeItems { p with indent := p.indent + 4, inKey := false } items), p.lead)
  | .mapping isSet pairs =>
    let bareKeys := isSet || pairs.all (·.2.isNone)
    (bracketed p.indent '\x7b' '\x7d'
      (writePairs { p with indent := p.indent + 2, inKey := false } bareKeys pairs), p.lead)
  | .pairs _ pairs =>
    (bracketed p.indent '[' ']' (writePairs { p with indent := p.indent + 4, inKey := false } false pairs), p.lead)
  | .labelled anchor tag n =>
    let labels := labelText p.handles anchor tag
    if labels.isEmpty then writeNode p n
    else
      let lead := some (p.lead.getD 0 + labels.length + 1)
      (labels ++ Text.unit ' ' :: (writeNode { p with lead } n).1, lead)

/-- The texts of items; what labels have begun goes on for the items behind them. -/
def writeItems (p : Pen) : List Node → List Text
  | [] => []
  | n :: rest =>
    let (text, lead) := writeNode p n
    text :: writeItems { p with lead } rest

/-- The texts of pairs; `bareKeys` tells that only keys are written. -/
def writePairs (p : Pen) (bareKeys : Bool) : List (Node × Option Node) → List Text
  | [] => []
  | (key, none) :: rest =>
    let explicit := isExplicitKey key
    let (keyText, _) := writeNode { p with indent := p.indent + 2, inKey := !explicit && !bareKeys } key
    keyAlone explicit keyText :: writePairs p bareKeys rest
  | (key, some value) :: rest =>
    let explicit := isExplicitKey key
    let (keyText, lead) := writeNode { p with indent := p.indent + 2, inKey := !explicit && !bareKeys } key
    let head := keyHead p.indent explicit keyText
    let lead := if !explicit && isScalar value then some (head.length + 1) else lead
    let (text, _) := writeNode { p with indent := p.indent + 2, inKey := false, lead } value
    (if bareKeys then keyAlone explicit keyText else head ++ gapBefore (p.indent + 2) explicit value text ++ text)
      :: writePairs p bareKeys rest
end

/-- The text of a collection in flow style, without its own labels. -/
def Node.written (schema : Schema) (handles : TagHandles) (n : Node) : String :=
  Text.toString (writeNode { schema, handles } n.bare).1

end LintRepair.Yaml
