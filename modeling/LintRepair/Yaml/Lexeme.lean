import LintRepair.Text.Basic

/-!
# Lexemes of YAML

The pieces that a YAML text is cut into. Put end to end they are the text; the kind of a piece is told
by its first character, except that plain and block scalars are marked by the scanner.
-/
namespace LintRepair.Yaml

inductive LexemeKind where
  | byteOrderMark
  /-- A document begins here without a marker; takes up no text. -/
  | documentMode
  /-- A flow collection ends here although it is not closed; takes up no text. -/
  | flowErrorEnd
  | scalar
  | documentStart
  | documentEnd
  | newline
  | sequenceItem
  | explicitKey
  | mapValue
  | flowMapStart
  | flowMapEnd
  | flowSequenceStart
  | flowSequenceEnd
  | comma
  | space
  | comment
  | directive
  | reference
  | anchor
  | tag
  | singleQuoted
  | doubleQuoted
  | blockScalarHeader
  | unknown
deriving DecidableEq, Repr, Inhabited

namespace LexemeKind

/-- The name of a kind in messages. -/
def label : LexemeKind → String
  | byteOrderMark => "byte-order-mark"
  | documentMode => "doc-mode"
  | flowErrorEnd => "flow-error-end"
  | scalar => "scalar"
  | documentStart => "doc-start"
  | documentEnd => "doc-end"
  | newline => "newline"
  | sequenceItem => "seq-item-ind"
  | explicitKey => "explicit-key-ind"
  | mapValue => "map-value-ind"
  | flowMapStart => "flow-map-start"
  | flowMapEnd => "flow-map-end"
  | flowSequenceStart => "flow-seq-start"
  | flowSequenceEnd => "flow-seq-end"
  | comma => "comma"
  | space => "space"
  | comment => "comment"
  | directive => "directive-line"
  | reference => "alias"
  | anchor => "anchor"
  | tag => "tag"
  | singleQuoted => "single-quoted-scalar"
  | doubleQuoted => "double-quoted-scalar"
  | blockScalarHeader => "block-scalar-header"
  | unknown => "unknown"

/-- The kinds that a scalar or an alias on one line has. -/
def isFlowScalar : LexemeKind → Bool
  | reference | scalar | singleQuoted | doubleQuoted => true
  | _ => false

/-- Blanks, comments and line ends. -/
def isTrivia : LexemeKind → Bool
  | space | comment | newline => true
  | _ => false

def ofSource (source : List Char) : LexemeKind :=
  match source with
  | ['\uFEFF'] => byteOrderMark
  | ['-', '-', '-'] => documentStart
  | ['.', '.', '.'] => documentEnd
  | [] | ['\n'] | ['\r', '\n'] => newline
  | ['-'] => sequenceItem
  | ['?'] => explicitKey
  | [':'] => mapValue
  | ['\x7b'] => flowMapStart
  | ['\x7d'] => flowMapEnd
  | ['['] => flowSequenceStart
  | [']'] => flowSequenceEnd
  | [','] => comma
  | ' ' :: _ | '\t' :: _ => space
  | '#' :: _ => comment
  | '%' :: _ => directive
  | '*' :: _ => reference
  | '&' :: _ => anchor
  | '!' :: _ => tag
  | '\'' :: _ => singleQuoted
  | '"' :: _ => doubleQuoted
  | '|' :: _ | '>' :: _ => blockScalarHeader
  | _ => unknown

end LexemeKind

structure Lexeme where
  kind : LexemeKind
  source : List Char
deriving DecidableEq, Repr, Inhabited

/-- The number of units that characters take up. -/
def width (cs : List Char) : Nat := (Text.ofChars cs).length

/-- The number of units that pieces of text take up together. -/
def totalWidth (pieces : List (List Char)) : Nat := pieces.foldl (fun n cs => n + width cs) 0

/-- White space, or the end of the text. -/
def isEmptyAt : Option Char → Bool
  | none | some ' ' | some '\n' | some '\r' | some '\t' => true
  | _ => false

/-- The characters that structure flow collections. -/
def isFlowIndicator : Option Char → Bool
  | some c => [',', '[', ']', '\x7b', '\x7d'].contains c
  | none => false

/-- Whether an anchor or alias name ends before this character. -/
def endsName (c : Option Char) : Bool := isEmptyAt c || isFlowIndicator c

end LintRepair.Yaml
