import LintRepair.Yaml.Lexeme

/-!
# Drafts of YAML documents

A draft has the shape that indentation and brackets give a document, with every lexeme in its place. It may
break rules: whether it does is asked when nodes are made of it.
-/
namespace LintRepair.Yaml

/-- A lexeme in its place, with the indentation of its line so far. -/
structure Token where
  kind : LexemeKind
  offset : Nat
  indent : Nat
  source : List Char
deriving DecidableEq, Repr, Inhabited

def Token.stop (t : Token) : Nat := t.offset + width t.source

def hasKind (kind : LexemeKind) (ts : List Token) : Bool := ts.any (·.kind = kind)

mutual
inductive Draft where
  /-- An alias, a plain or a quoted scalar, with what follows it on the line. -/
  | flowScalar (head : Token) (tail : List Token)
  | blockScalar (offset indent : Nat) (header : List Token) (source : List Char)
  | blockMap (offset indent : Nat) (entries : List Entry)
  | blockSequence (offset indent : Nat) (entries : List Entry)
  /-- A flow collection; its tail begins with the closing bracket if there is one. -/
  | flow (offset indent : Nat) (opening : Token) (entries : List Entry) (tail : List Token)
  /-- A lexeme where no value may begin. -/
  | misplaced (token : Token) (message : String)

/-- A part of a collection: what stands before the key, whether a question mark does, the key, what stands
between key and value, and the value. An item of a sequence has no key. -/
inductive Entry where
  | mk (start : List Token) (explicit : Bool) (key : Option Draft) (sep : Option (List Token))
      (value : Option Draft)
end

instance : Inhabited Draft := ⟨.misplaced default ""⟩

namespace Entry

def start : Entry → List Token
  | mk start _ _ _ _ => start

def explicit : Entry → Bool
  | mk _ explicit _ _ _ => explicit

def key : Entry → Option Draft
  | mk _ _ key _ _ => key

def sep : Entry → Option (List Token)
  | mk _ _ _ sep _ => sep

def value : Entry → Option Draft
  | mk _ _ _ _ value => value

instance : Inhabited Entry := ⟨mk [] false none none none⟩

/-- An entry of which only the beginning is known. -/
def ofStart (start : List Token) : Entry := mk start false none none none

/-- An entry with a key, or with an empty one. -/
def ofKey (start : List Token) (key : Option Draft) (sep : List Token) : Entry := mk start false key (some sep) none

def addStart (e : Entry) (t : Token) : Entry := mk (e.start ++ [t]) e.explicit e.key e.sep e.value

def addSep (e : Entry) (ts : List Token) : Entry :=
  mk e.start e.explicit e.key (some (e.sep.getD [] ++ ts)) e.value

def withStart (e : Entry) (start : List Token) : Entry := mk start e.explicit e.key e.sep e.value

def withSep (e : Entry) (sep : Option (List Token)) : Entry := mk e.start e.explicit e.key sep e.value

def withKey (e : Entry) (key : Option Draft) (sep : List Token) : Entry :=
  mk e.start e.explicit key (some sep) e.value

def withValue (e : Entry) (value : Option Draft) : Entry := mk e.start e.explicit e.key e.sep value

/-- Only blanks, and something: an entry that belongs to what follows its collection. -/
def isLeftover (e : Entry) (indent : Nat) : Bool :=
  e.sep.isNone && e.value.isNone && !e.start.isEmpty && e.start.all (·.kind.isTrivia)
    && (indent = 0 || e.start.all fun t => t.kind ≠ .comment || t.indent < indent)

end Entry

namespace Draft

/-- A value that can stand on the line of a key. -/
def isFlow : Draft → Bool
  | flowScalar _ _ | flow _ _ _ _ _ => true
  | _ => false

def isBlockCollection : Draft → Bool
  | blockMap _ _ _ | blockSequence _ _ _ => true
  | _ => false

def isBlockSequence : Draft → Bool
  | blockSequence _ _ _ => true
  | _ => false

def offset : Draft → Nat
  | flowScalar head _ => head.offset
  | blockScalar offset _ _ _ | blockMap offset _ _ | blockSequence offset _ _ | flow offset _ _ _ _ => offset
  | misplaced t _ => t.offset

def indent? : Draft → Option Nat
  | flowScalar head _ => some head.indent
  | blockScalar _ indent _ _ | blockMap _ indent _ | blockSequence _ indent _ | flow _ indent _ _ _ => some indent
  | misplaced _ _ => none

/-- What follows a value on its line. -/
def tail : Draft → List Token
  | flowScalar _ tail | flow _ _ _ _ tail => tail
  | _ => []

def addTail (ts : List Token) : Draft → Draft
  | flowScalar head tail => flowScalar head (tail ++ ts)
  | flow offset indent opening entries tail => flow offset indent opening entries (tail ++ ts)
  | d => d

/-- The range that a complaint about the whole value points at. -/
def range (d : Draft) : Nat × Nat :=
  match d with
  | flowScalar head _ => (head.offset, head.stop)
  | blockScalar offset _ _ source => (offset, offset + width source)
  | misplaced t _ => (t.offset, t.stop)
  | d => (d.offset, d.offset + 1)

/-- The range of the value itself, up to the bracket that closes it. -/
def span : Draft → Nat × Nat
  | flow offset _ _ _ (close :: _) => (offset, close.stop)
  | d => d.range

end Draft

/-- What a text falls into. -/
inductive Chunk where
  | directive (t : Token)
  | document (offset : Nat) (start : List Token) (value : Option Draft) (tail : List Token)
  | documentEnd (marker : Token) (tail : List Token)
  /-- A lexeme outside every document. -/
  | misplaced (token : Token) (message : String)

instance : Inhabited Chunk := ⟨.misplaced default ""⟩

end LintRepair.Yaml
