import LintRepair.Text.Expression.Reading

/-!
# Pieces of patterns

A pattern of paths is spelled as a regular expression piece by piece. This module holds the spellings that the
signs of patterns stand for, the pieces, and the draft in which they are collected: a piece is added behind the
others, and adding it may change what the piece in front of it spells.
-/
namespace LintRepair.Pattern

/-! ## Spellings -/

/-- The rest is not empty. -/
def something : String := "(?=.)"

/-- A sign of a name. -/
def nameSign : String := "[^/]"

/-- Any signs of a name. -/
def anyName : String := "[^/]*?"

def slash : String := "\\/"

def dot : String := "\\."

/-- A dot or two that are a whole name. -/
def dots : String := "\\.\x7b1,2\x7d(?:\\/|$)"

/-- No hidden name follows. -/
def notHidden : String := "(?!\\.)"

/-- Any names one below the other. Names that begin with a dot are left out, or, if hidden names are wanted,
those that consist of dots. -/
def anyDepth (hidden : Bool) : String := "(?:(?:(?!(?:^|\\/)" ++ (if hidden then dots else dot) ++ ").)*?)"

/-- The signs that mean something in an expression. -/
def isOperator (c : Char) : Bool := "-*+?.^$\x7b(|)[]\x7d".contains c

/-- The spelling of a text that means itself. -/
def literal (s : String) : String :=
  String.ofList (s.toList.flatMap fun c => if isOperator c then ['\\', c] else [c])

theorem literal_empty : literal "" = "" := rfl

/-- A text without so many signs at its end. -/
def withoutLast (n : Nat) (s : String) : String := String.ofList (s.toList.take (s.length - n))

/-- A text with a backslash in front of the last of a sign that has none yet. -/
def escapeLast (c : Char) (s : String) : String :=
  let rec go : List Char → List Char
    | [] => []
    | d :: more =>
      if d = c && more.head? ≠ some '\\' then d :: '\\' :: more else d :: go more
  String.ofList (go s.toList.reverse).reverse

/-- The set that a named class of characters stands for in brackets. -/
def namedClass? : String → Option String
  | "alnum" => some "a-zA-Z0-9"
  | "alpha" => some "a-zA-Z"
  | "ascii" => some "\\x00-\\x7F"
  | "blank" => some " \\t"
  | "cntrl" => some "\\x00-\\x1F\\x7F"
  | "digit" => some "0-9"
  | "graph" => some "\\x21-\\x7E"
  | "lower" => some "a-z"
  | "print" => some "\\x20-\\x7E "
  | "punct" => some "\\-!\"#$%&'()\\*+,./:;<=>?@[\\]^_`\x7b|\x7d~"
  | "space" => some " \\t\\r\\n\\v\\f"
  | "upper" => some "A-Z"
  | "word" => some "A-Za-z0-9_"
  | "xdigit" => some "A-Fa-f0-9"
  | _ => none

/-! ## Pieces -/

inductive PieceKind where
  | opening
  | text
  | slash
  | dot
  /-- Two dots between the ends of a range. -/
  | dots
  /-- Any signs of a name. -/
  | run
  /-- Any names one below the other. -/
  | depth
  | question
  | exclusion
  | plus
  | at
  | bracket
  | paren
  | brace
  | comma
  | ending
deriving DecidableEq, Repr, Inhabited

structure Piece where
  kind : PieceKind
  /-- How the pattern writes it. -/
  written : String
  /-- How the expression spells it, if not as it is written. -/
  spelled : Option String := none
  /-- It belongs to a group behind a sign. -/
  signed : Bool := false
  /-- More than two stars. -/
  worn : Bool := false
  /-- Brackets in which another bracket may open the name of a class. -/
  classed : Bool := false
deriving Repr, Inhabited

namespace Piece

def spelling (p : Piece) : String := p.spelled.getD p.written

/-- The piece with more behind its spelling. -/
def extend (p : Piece) (more : String) : Piece := { p with spelled := some (p.spelling ++ more) }

/-- Stars that stand for any signs of a name. -/
def asRun (p : Piece) : Piece := { p with kind := .run, written := "*", spelled := some anyName }

end Piece

/-- A group behind a sign that has not been closed. -/
structure SignedGroup where
  sign : Char
  /-- What has been written in it. -/
  inner : String
  /-- How many parentheses were open in front of it. -/
  depth : Int
deriving Repr, Inhabited

/-- An opening brace that has not been closed. -/
structure OpenBrace where
  /-- How long the spelling in front of it was. -/
  spelledBefore : Nat
  /-- How many pieces were in front of it. -/
  piecesBefore : Nat
  hasComma : Bool := false
  hasDots : Bool := false
deriving Repr, Inhabited

/-- What brackets of any form are opened for. -/
inductive Opened where
  | set
  | group
  | braces
deriving DecidableEq, Repr, Inhabited

/-- A pattern that has been read in part. -/
structure Draft where
  /-- Hidden names are wanted. -/
  hidden : Bool
  /-- What is left of the pattern. -/
  rest : List Char
  /-- How many signs have been read. -/
  read : Nat := 0
  /-- How many signs stand in front of the pattern proper. -/
  start : Nat := 0
  spelled : String := ""
  /-- The pieces, the last one first. -/
  pieces : List Piece := [⟨.opening, "", some "", false, false, false⟩]
  negated : Bool := false
  quoted : Bool := false
  sets : Nat := 0
  groups : Int := 0
  braces : Nat := 0
  /-- What has been opened, the innermost first. -/
  opened : List Opened := []
  signedGroups : List SignedGroup := []
  openBraces : List OpenBrace := []
  /-- The spelling has to be put together from the pieces. -/
  revised : Bool := false
deriving Inhabited

abbrev Drafting := StateM Draft

namespace Drafting

/-- The sign so many places ahead. -/
def peek (n : Nat := 0) : Drafting (Option Char) := return (← get).rest[n]?

def skip (n : Nat) : Drafting Unit := modify fun s => { s with rest := s.rest.drop n, read := s.read + n }

/-- The next sign, or nothing at the end. -/
def advance : Drafting String := do
  let c ← peek
  skip 1
  return (c.map String.singleton).getD ""

/-- The last piece. -/
def last : Drafting Piece := return (← get).pieces.headD default

def modifyLast (f : Piece → Piece) : Drafting Unit :=
  modify fun s => { s with pieces := match s.pieces with
    | p :: more => f p :: more
    | [] => [] }

def append (spelling : String) : Drafting Unit := modify fun s => { s with spelled := s.spelled ++ spelling }

def cut (n : Nat) : Drafting Unit := modify fun s => { s with spelled := withoutLast n s.spelled }

def revise : Drafting Unit := modify fun s => { s with revised := true }

def opens (o : Opened) : Drafting Unit :=
  modify fun s =>
    let s := { s with opened := o :: s.opened }
    match o with
    | .set => { s with sets := s.sets + 1 }
    | .group => { s with groups := s.groups + 1 }
    | .braces => { s with braces := s.braces + 1 }

def closes (o : Opened) : Drafting Unit :=
  modify fun s =>
    let s := { s with opened := s.opened.drop 1 }
    match o with
    | .set => { s with sets := s.sets - 1 }
    | .group => { s with groups := s.groups - 1 }
    | .braces => { s with braces := s.braces - 1 }

/-- Whether names of any depth stay what they are in front of a piece. -/
def keepsDepth (s : Draft) (p : Piece) : Bool :=
  match p.kind with
  | .slash | .paren => true
  | .comma | .brace => 0 < s.braces || p.signed
  | _ => p.signed

/-- Adds a piece. Names of any depth in front of most pieces are any signs of a name, and texts that follow each
other are one piece. -/
def push (p : Piece) : Drafting Unit := do
  let before ← last
  if before.kind = .depth && !keepsDepth (← get) p then
    cut before.spelling.length
    modifyLast Piece.asRun
    append anyName
  if p.kind ≠ .paren then
    modify fun s => { s with signedGroups := match s.signedGroups with
      | g :: more => { g with inner := g.inner ++ p.written } :: more
      | [] => [] }
  append p.spelling
  let before ← last
  if before.kind = .text && p.kind = .text then
    let spelled := match before.spelled with
      | none | some "" => before.written
      | some s => s
    modifyLast fun b => { b with spelled := some (spelled ++ p.written), written := b.written ++ p.written }
  else modify fun s => { s with pieces := p :: s.pieces }

/-- The spelling of what has been read. -/
def finished (s : Draft) : String :=
  if s.revised then String.join (s.pieces.reverse.map Piece.spelling) else s.spelled

end Drafting
end LintRepair.Pattern
