import LintRepair.Value.Literal
import LintRepair.Yaml.Draft

/-!
# Scalars

The text that a scalar stands for, with what is wrong about it.
-/
namespace LintRepair.Yaml

/-- Something wrong, at a range of units. -/
structure Complaint where
  start : Nat
  stop : Nat
  message : String
deriving DecidableEq, Repr, Inhabited

/-- A complaint about one unit. -/
def Complaint.atOffset (offset : Nat) (message : String) : Complaint := ⟨offset, offset + 1, message⟩

def Complaint.atToken (t : Token) (message : String) : Complaint := ⟨t.offset, t.stop, message⟩

def isBlank (c : Char) : Bool := c = ' ' || c = '\t'

def trimEnd (cs : List Char) : List Char := (cs.reverse.dropWhile isBlank).reverse

/-- The lines of a text, without their ends. -/
def splitLines : List Char → List (List Char)
  | [] => [[]]
  | '\n' :: rest => [] :: splitLines rest
  | c :: rest => match splitLines rest with
    | [] => [[c]]
    | line :: lines => (c :: line) :: lines

/-- A line without a carriage return at its end. -/
def dropReturn (line : List Char) : List Char := if line.getLast? = some '\r' then line.dropLast else line

/-- Lines folded into one: a line end counts as a blank, several as one line end less. -/
def foldLines (cs : List Char) : List Char :=
  match splitLines cs with
  | [] | [_] => cs
  | first :: rest =>
    let inner := rest.dropLast.map fun line => trimEnd ((dropReturn line).dropWhile isBlank)
    let (body, gap) := inner.foldl
      (fun (body, gap) line =>
        if line.isEmpty then if gap = '\n' then (body ++ [gap], gap) else (body, '\n')
        else (body ++ gap :: line, ' '))
      (trimEnd (dropReturn first), ' ')
    body ++ gap :: (rest.getLast?.getD []).dropWhile isBlank

/-- What forbids a plain scalar to begin as it does. -/
def badStart? : Option Char → Option String
  | some '\t' => some "a tab character"
  | some ',' => some "flow indicator character ,"
  | some '%' => some "directive indicator character %"
  | some '|' => some "block scalar indicator |"
  | some '>' => some "block scalar indicator >"
  | some '@' => some "reserved character @"
  | some '\x60' => some "reserved character \x60"
  | _ => none

/-- Of a doubled quote one is left. -/
def undouble : List Char → List Char
  | '\'' :: '\'' :: rest => '\'' :: undouble rest
  | c :: rest => c :: undouble rest
  | [] => []

/-- The characters between the first and the last. -/
def between (cs : List Char) : List Char := (cs.drop 1).dropLast

def isClosedBy (quote : Char) (cs : List Char) : Bool := 2 ≤ cs.length && cs.getLast? = some quote

def simpleEscape? : Char → Option Char
  | '0' => some '\x00'
  | 'a' => some '\x07'
  | 'b' => some '\x08'
  | 'e' => some '\x1b'
  | 'f' => some '\x0c'
  | 'n' => some '\n'
  | 'r' => some '\r'
  | 't' => some '\t'
  | 'v' => some '\x0b'
  | 'N' => some '\u0085'
  | '_' => some '\u00a0'
  | 'L' => some '\u2028'
  | 'P' => some '\u2029'
  | ' ' => some ' '
  | '"' => some '"'
  | '/' => some '/'
  | '\\' => some '\\'
  | '\t' => some '\t'
  | _ => none

def codeLength? : Char → Option Nat
  | 'x' => some 2
  | 'u' => some 4
  | 'U' => some 8
  | _ => none

/-- Line ends and the blanks around them, as many as there are: the number of characters, and the line ends
among them behind the first. -/
def lineGap : List Char → Nat × List Char
  | '\r' :: '\n' :: rest =>
    let (n, ends) := lineGap rest
    (n + 2, '\n' :: ends)
  | '\n' :: rest =>
    let (n, ends) := lineGap rest
    (n + 1, '\n' :: ends)
  | ' ' :: rest | '\t' :: rest =>
    let (n, ends) := lineGap rest
    (n + 1, ends)
  | _ => (0, [])

/-- The code of an escape with a code, and the length of the escape. -/
def escapedCode? : List Char → Option (Nat × Nat)
  | '\\' :: c :: rest => do
    let n ← codeLength? c
    let digits := rest.take n
    if digits.length = n then (Number.digits? 16 digits).map (·, n + 2) else none
  | _ => none

/-- The character of a code, which goes together with the code of an escape behind it where the two are halves
of a pair; and the length of that escape if so. -/
def charOfCode (code : Nat) (behind : List Char) : Char × Nat :=
  let half : Char × Nat := ('\ufffd', 0)
  if 0xD800 ≤ code && code < 0xDC00 then
    match escapedCode? behind with
    | some (low, n) =>
      if 0xDC00 ≤ low && low < 0xE000 then
        (Char.ofNat (0x10000 + (code - 0xD800) * 0x400 + (low - 0xDC00)), n)
      else half
    | none => half
  else if 0xDC00 ≤ code && code < 0xE000 then half
  else (Char.ofNat code, 0)

/-- The text of a double-quoted scalar, from behind the opening quote, with complaints at offsets from there. -/
def unescape : Nat → Nat → List Char → List Char × List (Nat × String)
  | 0, _, _ => ([], [])
  | _, _, [] => ([], [])
  | fuel + 1, at_, '\r' :: '\n' :: rest => unescape fuel (at_ + 1) ('\n' :: rest)
  | fuel + 1, at_, '\n' :: rest =>
    let (n, ends) := lineGap rest
    let (text, bad) := unescape fuel (at_ + 1 + n) (rest.drop n)
    ((if ends.isEmpty then [' '] else ends) ++ text, bad)
  | fuel + 1, at_, '\\' :: '\r' :: '\n' :: rest =>
    let n := (rest.takeWhile isBlank).length
    unescape fuel (at_ + 3 + n) (rest.drop n)
  | fuel + 1, at_, '\\' :: '\n' :: rest =>
    let n := (rest.takeWhile isBlank).length
    unescape fuel (at_ + 2 + n) (rest.drop n)
  | fuel + 1, at_, '\\' :: c :: rest =>
    match simpleEscape? c, codeLength? c with
    | some d, _ =>
      let (text, bad) := unescape fuel (at_ + 2) rest
      (d :: text, bad)
    | none, some n =>
      let digits := rest.take n
      let stop := at_ + 2 + width digits
      let behind := rest.drop n
      match (escapedCode? ('\\' :: c :: rest)).filter (·.1 < 0x110000) with
      | some (code, _) =>
        let (d, more) := charOfCode code behind
        let (text, bad) := unescape fuel (stop + more) (behind.drop more)
        (d :: text, bad)
      | none =>
        let (text, bad) := unescape fuel stop behind
        let raw := '\\' :: c :: digits
        (raw ++ text, (at_, "Invalid escape sequence " ++ String.ofList raw) :: bad)
    | none, none =>
      let (text, bad) := unescape fuel (at_ + 1 + width [c]) rest
      ('\\' :: c :: text, (at_, "Invalid escape sequence " ++ String.ofList ['\\', c]) :: bad)
  | fuel + 1, at_, c :: rest =>
    if isBlank c then
      let more := rest.takeWhile isBlank
      let behind := rest.drop more.length
      let (text, bad) := unescape fuel (at_ + 1 + more.length) behind
      match behind with
      | '\n' :: _ | '\r' :: '\n' :: _ => (text, bad)
      | _ => (c :: more ++ text, bad)
    else
      let (text, bad) := unescape fuel (at_ + width [c]) rest
      (c :: text, bad)

/-- The text of a scalar on one line or over folded lines, with the complaints about it. -/
def flowText (t : Token) : List Char × List Complaint :=
  let unclosed (message : String) : Complaint := .atOffset t.stop message
  match t.kind with
  | .singleQuoted =>
    (undouble (foldLines (between t.source)),
      if isClosedBy '\'' t.source then [] else [unclosed "Missing closing 'quote"])
  | .doubleQuoted =>
    let (text, bad) := unescape (t.source.length + 1) 1 (between t.source)
    (text, bad.map (fun (at_, m) => .atOffset (t.offset + at_) m)
      ++ if isClosedBy '"' t.source then [] else [unclosed "Missing closing \"quote"])
  | _ =>
    (foldLines t.source, match badStart? t.source.head? with
      | some what => [.atOffset t.offset ("Plain value cannot start with " ++ what)]
      | none => [])

/-! ## Block scalars -/

/-- What the first line of a block scalar says. -/
structure BlockHeader where
  folded : Bool
  /-- The indentation that is asked for, or zero. -/
  indent : Nat
  chomp : Option Char
  /-- The length of the header, its comment and its line end included. -/
  width : Nat
deriving Repr, Inhabited

/-- The indentation digit, the chomping sign and the offset of the first other character. -/
def headerParts : List Char → Nat → Nat × Option Char × Option Nat → Nat × Option Char × Option Nat
  | [], _, parts => parts
  | c :: rest, at_, (indent, chomp, extra) =>
    headerParts rest (at_ + 1) (
      if chomp.isNone && (c = '-' || c = '+') then (indent, some c, extra)
      else if indent = 0 && '1' ≤ c && c ≤ '9' then (c.toNat - '0'.toNat, chomp, extra)
      else (indent, chomp, extra.or (some at_)))

def blockHeader (offset : Nat) (tokens : List Token) : BlockHeader × List Complaint :=
  match tokens with
  | [] => (default, [])
  | head :: rest =>
    let (indent, chomp, extra) := headerParts head.source.tail 1 (0, none, none)
    let extraComplaint := extra.map fun at_ => Complaint.atOffset (offset + at_)
      ("Block scalar header includes extra characters: " ++ String.ofList head.source)
    let (_, commentComplaints) := rest.foldl
      (fun (spaced, cs) t => match t.kind with
        | .space => (true, cs)
        | .comment => (spaced, if spaced then cs else cs ++ [Complaint.atToken t
            "Comments must be separated from other tokens by white space characters"])
        | _ => (spaced, cs))
      (false, [])
    (⟨head.source.head? = some '>', indent, chomp,
        Yaml.width head.source + totalWidth (rest.map (·.source))⟩,
      extraComplaint.toList ++ commentComplaints)

/-- A line of a block scalar: its indentation and what follows. -/
structure BlockLine where
  indent : Nat
  content : List Char
deriving Repr, Inhabited

namespace BlockLine

def ofLine (line : List Char) : BlockLine :=
  let indent := (line.takeWhile (· = ' ')).length
  ⟨indent, line.drop indent⟩

def isEmpty (l : BlockLine) : Bool := l.content = [] || l.content = ['\r']

/-- The units of the line with its end. -/
def width (l : BlockLine) : Nat := l.indent + Yaml.width l.content + 1

/-- The indentation beyond `trim`. -/
def margin (trim : Nat) (l : BlockLine) : List Char := List.replicate (l.indent - trim) ' '

end BlockLine

/-- The indentation to take off, the offset of the first line with content, that line's number, and complaints. -/
def findIndent (header : BlockHeader) (atRoot : Bool) :
    List BlockLine → Nat → Nat → Nat → Nat × Nat × Nat × List Complaint
  | [], trim, offset, number => (trim, offset, number, [])
  | l :: rest, trim, offset, number =>
    if l.isEmpty then
      findIndent header atRoot rest (if header.indent = 0 && trim < l.indent then l.indent else trim)
        (offset + l.width) (number + 1)
    else
      let less := if l.indent < trim then [Complaint.atOffset (offset + l.indent)
        "Block scalars with more-indented leading empty lines must use an explicit indentation indicator"] else []
      let trim := if header.indent = 0 then l.indent else trim
      let bare := if trim = 0 && !atRoot then [Complaint.atOffset offset
        "Block scalar values in collections must be indented"] else []
      (trim, offset, number, less ++ bare)

/-- A block scalar half read. -/
structure BlockText where
  text : List Char := []
  /-- What stands before the next line. -/
  gap : List Char := []
  /-- The last line was indented more than the others. -/
  deeper : Bool := false
  complaints : List Complaint := []
  offset : Nat
deriving Repr, Inhabited

/-- Takes in a line; folded lines are joined unless one of them is indented more. -/
def BlockText.add (header : BlockHeader) (trim : Nat) (b : BlockText) (l : BlockLine) : BlockText :=
  let content := dropReturn l.content
  let offset := b.offset + l.width
  let short := !content.isEmpty && l.indent < trim
  let source := if header.indent = 0 then "first line" else "explicit indentation indicator"
  let b := if short then { b with complaints := b.complaints ++ [.atOffset
      (offset - width content - (if content.length < l.content.length then 2 else 1))
      ("Block scalar lines must not be less indented than their " ++ source)] } else b
  let whole := l.margin trim ++ content
  if !header.folded then { b with offset, text := b.text ++ b.gap ++ whole, gap := ['\n'] }
  else if trim < l.indent || content.head? = some '\t' then
    let gap := if b.gap = [' '] then ['\n'] else if !b.deeper && b.gap = ['\n'] then ['\n', '\n'] else b.gap
    { b with offset, text := b.text ++ gap ++ whole, gap := ['\n'], deeper := true }
  else if content.isEmpty then
    if b.gap = ['\n'] then { b with offset, text := b.text ++ ['\n'] } else { b with offset, gap := ['\n'] }
  else { b with offset, text := b.text ++ b.gap ++ content, gap := [' '], deeper := false }

/-- The text of a block scalar, with the complaints about it. -/
def blockText (atRoot : Bool) (offset indent : Nat) (tokens : List Token) (source : List Char) :
    List Char × List Complaint :=
  let (header, complaints) := blockHeader offset tokens
  let lines := if source.isEmpty then [] else (splitLines source).map BlockLine.ofLine
  let filled := lines.length - (lines.reverse.takeWhile BlockLine.isEmpty).length
  if filled = 0 then
    (if header.chomp = some '+' && !lines.isEmpty then List.replicate (max 1 (lines.length - 1)) '\n' else [],
      complaints)
  else
    let (trim, start, first, indentComplaints) :=
      findIndent header atRoot (lines.take filled) (indent + header.indent) (offset + header.width) 0
    let trailing := (lines.drop filled).reverse.dropWhile fun l => l.indent ≤ trim
    let stop := filled + trailing.length
    let leading := (lines.take first).flatMap fun l => l.margin trim ++ ['\n']
    let body := ((lines.take stop).drop first).foldl (BlockText.add header trim) { text := leading, offset := start }
    let ending := match header.chomp with
      | some '-' => []
      | some _ =>
        let kept := (lines.drop stop).flatMap fun l => '\n' :: l.margin trim
        if (body.text ++ kept).getLast? = some '\n' then kept else kept ++ ['\n']
      | none => ['\n']
    (body.text ++ ending, complaints ++ indentComplaints ++ body.complaints)

end LintRepair.Yaml
