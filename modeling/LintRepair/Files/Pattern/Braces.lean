import LintRepair.Fault
import LintRepair.Value.Literal

/-!
# Braces

A pattern with braces stands for several patterns: one for each alternative between commas, or for each
member of a range. Braces without either stand for themselves, and so do those behind a dollar sign. Quotation
marks around a part of such a pattern are left out.
-/
namespace LintRepair.Braces

/-- What is known of a pair of braces. -/
structure Marks where
  commas : Nat := 0
  /-- How often two dots stand where they separate the ends of a range. -/
  ranges : Nat := 0
  /-- Dots make them stand for themselves. -/
  bare : Bool := false
  /-- A dollar sign in front makes them stand for themselves, and those in them. -/
  dollar : Bool := false
deriving DecidableEq, Repr, Inhabited

inductive Part where
  | text (s : String)
  | opening
  | closing
  | comma
  | dot
  /-- Two dots between the ends of a range. -/
  | dots
  | paren (parts : List Part)
  | brace (marks : Marks) (parts : List Part)
deriving Repr, Inhabited

mutual

/-- How a part is written. -/
def Part.written : Part → String
  | .text s => s
  | .opening => "\x7b"
  | .closing => "\x7d"
  | .comma => ","
  | .dot => "."
  | .dots => ".."
  | .paren parts | .brace _ parts => writtenAll parts

def writtenAll : List Part → String
  | [] => ""
  | p :: more => p.written ++ writtenAll more

end

theorem writtenAll_append (a b : List Part) : writtenAll (a ++ b) = writtenAll a ++ writtenAll b := by
  induction a with
  | nil => simp [writtenAll]
  | cons p a ih => simp [writtenAll, ih, String.append_assoc]

/-! ## Reading -/

inductive Enclosure where
  | whole
  | parens
  | braces
deriving DecidableEq, Repr, Inhabited

/-- A part of a pattern that has not been closed. -/
structure Frame where
  enclosure : Enclosure := .whole
  marks : Marks := {}
  /-- The parts, the last one first. -/
  parts : List Part := []
deriving Inhabited

/-- Adds a text. It joins the text in front of it, also one that ends with the parenthesis of a group. -/
def addText (s : String) : List Part → List Part
  | .text t :: more => .text (t ++ s) :: more
  | .dot :: more => .text ("." ++ s) :: more
  | .paren inside :: more =>
    match inside.getLast? with
    | some (.text t) => .paren (inside.dropLast ++ [.text (t ++ s)]) :: more
    | _ => .text s :: .paren inside :: more
  | parts => .text s :: parts

namespace Frame

def text (f : Frame) (s : String) : Frame := { f with parts := addText s f.parts }

def add (f : Frame) (p : Part) : Frame := { f with parts := p :: f.parts }

/-- A comma. A range in front of it is no range. -/
def comma (f : Frame) : Frame :=
  let parts :=
    if 0 < f.marks.ranges then
      [.text (writtenAll (f.parts.reverse.drop 1)), .opening]
    else f.parts
  { f with parts := .comma :: parts, marks := { f.marks with commas := f.marks.commas + 1, ranges := 0 } }

/-- A dot. Two of them separate the ends of a range if they stand behind one or two texts; three never do. -/
def dot (f : Frame) : Frame :=
  match f.parts with
  | .dot :: more =>
    if f.parts.length = 3 || f.parts.length = 5 then
      { f with parts := .dots :: more, marks := { f.marks with ranges := f.marks.ranges + 1 } }
    else { f with parts := .text ".." :: more, marks := { f.marks with ranges := 0, bare := true } }
  | .dots :: before :: more =>
    { f with parts := .text (before.written ++ "...") :: more
             marks := { f.marks with ranges := f.marks.ranges - 1 } }
  | parts => { f with parts := .dot :: parts }

/-- The part that a frame has become. -/
def closed (f : Frame) : Part :=
  match f.enclosure with
  | .braces => .brace f.marks (f.parts.reverse ++ [.closing])
  | _ => .paren (addText ")" f.parts).reverse

/-- The texts of a frame that is never closed. -/
def bareParts (f : Frame) : List Part :=
  f.parts.map fun
    | .paren parts => .paren parts
    | .brace marks parts => .brace marks parts
    | p => .text p.written

end Frame

/-- A set in brackets with its closing bracket, and what follows; without one, everything. -/
def bracketed (depth : Nat) : List Char → List Char × List Char
  | [] => ([], [])
  | '\\' :: c :: cs => let (inside, after) := bracketed depth cs; ('\\' :: c :: inside, after)
  | '[' :: cs => let (inside, after) := bracketed (depth + 1) cs; ('[' :: inside, after)
  | ']' :: cs =>
    if depth = 0 then ([']'], cs) else let (inside, after) := bracketed (depth - 1) cs; (']' :: inside, after)
  | c :: cs => let (inside, after) := bracketed depth cs; (c :: inside, after)

/-- What stands before a quotation mark, and what follows it; without one, everything. -/
def quoted (mark : Char) : List Char → List Char × List Char
  | [] => ([], [])
  | '\\' :: c :: cs => let (inside, after) := quoted mark cs; ('\\' :: c :: inside, after)
  | c :: cs => if c = mark then ([], cs) else let (inside, after) := quoted mark cs; (c :: inside, after)

/-- Whether a dollar sign stands at the end. -/
def endsWithDollar : List Part → Bool
  | .text s :: _ => s.endsWith "$"
  | .paren inside :: _ => (writtenAll inside).endsWith "$"
  | _ => false

/-- The parts of a pattern. `outer` are the frames around the one that is read, the innermost first. -/
def read : Nat → List Frame → Frame → List Char → List Frame × Frame
  | 0, outer, f, _ => (outer, f)
  | _, outer, f, [] => (outer, f)
  | fuel + 1, outer, f, c :: cs =>
    let isDeep := (f :: outer).any (·.enclosure = .braces)
    match c with
    | '\uFEFF' | '\u00A0' => read fuel outer f cs
    | '\\' =>
      match cs with
      | d :: more => read fuel outer (f.text (String.ofList ['\\', d])) more
      | [] => (outer, f.text "\\undefined")
    | ']' => read fuel outer (f.text "\\]") cs
    | '[' =>
      let (inside, after) := bracketed 0 cs
      read fuel outer (f.text (String.ofList ('[' :: inside))) after
    | '(' => read fuel (f :: outer) { enclosure := .parens, parts := [.text "("] } cs
    | ')' =>
      match f.enclosure, outer with
      | .parens, around :: more => read fuel more (around.add f.closed) cs
      | _, _ => read fuel outer (f.text ")") cs
    | '"' | '\'' | '\x60' =>
      let (inside, after) := quoted c cs
      read fuel outer (f.text (String.ofList inside)) after
    | '{' =>
      let dollar := endsWithDollar f.parts || (f.enclosure = .braces && f.marks.dollar)
      read fuel (f :: outer) { enclosure := .braces, marks := { dollar }, parts := [.opening] } cs
    | '}' =>
      match f.enclosure, outer with
      | .braces, around :: more => read fuel more (around.add f.closed) cs
      | _, _ => read fuel outer (f.text "\x7d") cs
    | ',' => read fuel outer (if isDeep then f.comma else f.text ",") cs
    | '.' =>
      if f.enclosure = .braces && f.marks.commas = 0 then read fuel outer f.dot cs
      else read fuel outer (f.text ".") cs
    | c => read fuel outer (f.text (String.singleton c)) cs

/-- The parts of a pattern; what is never closed is a text. -/
def parts (pattern : String) : List Part :=
  let cs := pattern.toList
  let (outer, f) := read (cs.length + 1) [] {} cs
  let join (inner : List Part) (around : Frame) : List Part :=
    inner ++ if around.enclosure = .whole then around.parts else around.bareParts
  ((outer.foldl join (if f.enclosure = .whole then f.parts else f.bareParts))).reverse

/-! ## Ranges -/

/-- The whole number that a text spells. -/
def integer? (s : String) : Option Int := if s.isEmpty then none else (Number.ofText? s).bind Number.toInt?

/-- From one number to another in steps of a size, upwards or downwards. -/
def steps (first last : Int) (size : Nat) : List Int :=
  let count := (last - first).natAbs / size
  (List.range (count + 1)).map fun i =>
    if first ≤ last then first + (i * size : Nat) else first - (i * size : Nat)

/-- Whether a number is written with zeros in front. -/
def zeroPadded (cs : List Char) : Bool :=
  match (if cs.head? = some '-' then cs.tail else cs) with
  | '0' :: _ :: _ => true
  | _ => false

/-- A number filled up with zeros behind its sign. -/
def padded (width : Nat) (n : Int) : String :=
  let digits := (toString n.natAbs).toList
  let sign := if n < 0 then ['-'] else []
  String.ofList (sign ++ List.replicate (width - sign.length - digits.length) '0' ++ digits)

/-- The members of a range of numbers or letters. -/
def members (first last step : String) : List String :=
  match integer? step with
  | none => []
  | some n =>
    let size := max n.natAbs 1
    let ends := [first, last]
    match integer? first, integer? last with
    | some a, some b =>
      let written := [first, last, step]
      let width := if written.any (zeroPadded ·.toList) then (written.map String.length).foldl max 0 else 0
      (steps a b size).map (padded width)
    | _, _ =>
      if ends.any fun e => e.isEmpty || (e.length ≠ 1 && (integer? e).isNone) then []
      else
        let code (s : String) : Int := (s.toList.headD 'a').toNat
        (steps (code first) (code last) size).map fun n => String.singleton (Char.ofNat n.toNat)

/-- Whether a range has too many members to be spelled out. -/
def isTooLong (first last : String) : Bool :=
  match integer? first, integer? last with
  | some a, some b => 1000 ≤ b - a
  | _, _ => false

/-! ## Expansion -/

/-- Every text of the first list before every text of the second; with nothing in the second, the first. -/
def products (heads tails : List String) : List String :=
  if tails.isEmpty then heads else heads.flatMap fun h => tails.map (h ++ ·)

/-- Alternatives, the last one first, with more behind the last. -/
def extendLast (more : List String) : List (List String) → List (List String)
  | [] => [products [""] more]
  | last :: before => products last more :: before

/-- The texts of parts that are ends of a range. -/
def ends : List Part → List String
  | .text s :: more => s :: ends more
  | _ :: more => ends more
  | [] => []

mutual

/-- The alternatives with what a part stands for behind them. `place` counts the parts in front of it. -/
def expandPart (inBraces : Bool) (place : Nat) (queue : List (List String)) :
    Part → Except Fault (List (List String))
  | .text s => .ok (if s.isEmpty then queue else extendLast [s] queue)
  | .opening | .closing => .ok queue
  | .comma =>
    .ok (if !inBraces then extendLast [","] queue else if place = 1 then [""] :: [""] :: queue else [""] :: queue)
  | .dot => .ok (extendLast ["."] queue)
  | .dots => .ok (extendLast [".."] queue)
  | .paren parts => expandParts false 0 queue parts
  | .brace marks parts =>
    let whole := writtenAll parts
    if marks.bare || marks.dollar then .ok (extendLast [whole] queue)
    else if parts.length = 2 then .ok (extendLast ["\x7b\x7d"] queue)
    else if 0 < marks.ranges then
      let all (ms : List String) : List String := if ms.isEmpty then [whole] else ms
      match ends parts with
      | [first, last] =>
        if isTooLong first last then .error .longRange
        else .ok (extendLast (all (members first last "1")) queue)
      | first :: last :: step :: _ => .ok (extendLast (all (members first last step)) queue)
      | _ => .ok (extendLast [whole] queue)
    else
      match expandParts true 0 [] parts with
      | .error e => .error e
      | .ok inside =>
        let inside := inside.reverse.flatten
        let enclosed := if marks.commas = 0 then inside.map fun s => "\x7b" ++ s ++ "\x7d" else inside
        .ok (extendLast enclosed queue)

def expandParts (inBraces : Bool) (place : Nat) (queue : List (List String)) :
    List Part → Except Fault (List (List String))
  | [] => .ok queue
  | p :: more =>
    match expandPart inBraces place queue p with
    | .error e => .error e
    | .ok queue => expandParts inBraces (place + 1) queue more

end

/-- Whether an opening brace stands in front of a closing one. -/
def hasBraces (pattern : String) : Bool :=
  (pattern.toList.dropWhile (· ≠ '{')).contains '}'

/-- The patterns that a pattern stands for; empty ones are left out. -/
def expand (pattern : String) : Except Fault (List String) := do
  let all ←
    if hasBraces pattern && 2 < pattern.length then
      (fun (queue : List (List String)) => queue.reverse.flatten) <$> expandParts false 0 [] (parts pattern)
    else pure [pattern]
  return all.eraseDups.filter (· ≠ "")

/-- Patterns without braces stand for themselves. -/
theorem expand_of_not_hasBraces {pattern : String} (h : hasBraces pattern = false) (hne : pattern ≠ "") :
    expand pattern = .ok [pattern] := by
  have hone : [pattern].eraseDups = [pattern] := rfl
  simp [expand, h, hne, hone, pure, Except.pure, bind, Except.bind]

end LintRepair.Braces
