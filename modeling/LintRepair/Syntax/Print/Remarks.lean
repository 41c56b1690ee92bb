import LintRepair.Syntax.Print.Page
import LintRepair.Syntax.References

/-!
# Comments on a page

Comments are printed where they stand in the source, before the token that they lead or behind the one that
they trail.
-/
namespace LintRepair.Syntax.Print.Printer

/-- The column to which blanks from `i` on lead, where tabs go to multiples of a level's width. -/
def columnAfter (s : Source) : Nat → Nat → Nat → Nat
  | 0, _, column => column
  | fuel + 1, i, column =>
    if i < s.size && isGap (s.unitAt i) then
      columnAfter s fuel (i + 1) (if s.unitAt i = 9 then column + (levelWidth - column % levelWidth) else column + 1)
    else column

/-- The start of the line on which a place is. -/
def lineStart (s : Source) : Nat → Nat
  | 0 => 0
  | i + 1 => if isLineEnd (s.unitAt i) then i + 1 else lineStart s i

/-- Where the line behind the one that `i` is on starts. -/
def nextLine (s : Source) (i : Nat) : Nat :=
  let eol := s.lineEnd i
  if s.has eol '\r' && s.has (eol + 1) '\n' then eol + 2 else eol + 1

/-- A line of a block comment that starts at `i`; the answer is where the next one starts. -/
def remarkLine (c : Comment) (i : Nat) : Printer Nat := do
  let s ← source
  let next := nextLine s i
  let stop := min c.stop (next - 1)
  let content := Text.trim (s.slice i stop)
  if content.isEmpty then putRaw [Text.unit '\n']
  else
    putRemark content
    if stop ≠ c.stop then newLine
  return next

/-- The lines of a block comment behind its first: further lines are shifted as the first one is. -/
def furtherLines (c : Comment) (firstColumn : Nat) : Nat → Nat → Printer Unit
  | 0, _ => pure ()
  | fuel + 1, i => do
    if c.stop ≤ i then return
    let s ← source
    putRaw (blanks ((← get).level * levelWidth + columnAfter s (s.size - i) i 0 - firstColumn))
    furtherLines c firstColumn fuel (← remarkLine c i)

/-- The comment itself. -/
def remark (c : Comment) : Printer Unit := do
  let s ← source
  if c.block then
    let first := lineStart s c.start
    furtherLines c (columnAfter s (c.start - first) first 0) (s.size - c.start) (← remarkLine c c.start)
  else putRemark (s.slice c.start c.stop)

/-- Comments before a token: each on its line as in the source. -/
def leadingRemarks (place : Nat) (cs : List Comment) : Printer Unit :=
  cs.forM fun c => do
    if !(← get).commented then
      if place ≠ c.start && !(← sameLine place c.start) then newLine
      modify fun p => { p with commented := true }
    remark c
    if c.endsLine then newLine
    else if c.block then space

/-- The comments that lead the token at a place, unless a node around prints them. The references at the head
of a file of ambient declarations are printed apart. -/
def leadAt (place : Nat) : Printer Unit := do
  modify fun p => { p with commented := false }
  let p ← get
  if p.heldStart = some place then return
  let s := p.source
  let isApart (c : Comment) : Bool :=
    p.ambient && place = 0 && !c.block && Reference.isTag (s.slice c.start c.stop)
  let leadFrom (stop : Nat) : Printer Unit :=
    leadingRemarks stop ((s.leadingComments stop).filter (!isApart ·))
  match p.detached with
  | (start, stop) :: rest =>
    if start = place then
      modify fun p => { p with detached := rest }
      leadFrom stop
    else leadFrom place
  | [] => leadFrom place

/-- The comments behind the token that ends at a place, unless a node around prints them. -/
def trailWith (place : Nat) (print : Comment → Printer Unit) : Printer Unit := do
  let p ← get
  if p.heldStop = some place || (p.heldStop.isSome && p.variablesStop = some place) then return
  (p.source.trailingComments place).forM print

/-- A comment behind what stands on the line. -/
def afterSpace (c : Comment) : Printer Unit := do
  if !(← get).fresh then space
  remark c
  if c.endsLine then newLine

/-- A comment before what will stand on the line. -/
def beforeSpace (c : Comment) : Printer Unit := do
  remark c
  if c.endsLine then newLine else space

/-- A comment that does not end the line unless it has to. -/
def withinLine (c : Comment) : Printer Unit := do
  remark c
  if !c.block then newLine

def trailAt (place : Nat) : Printer Unit := trailWith place afterSpace

/-- Prints a node with the comments at its ends. -/
def commented (a : Ast) (r : Printer Unit) : Printer Unit := do
  let isText := a.kind = .jsxText
  let wide := (a.fullStart > 0 || a.stop > 0) && a.fullStart ≠ a.stop
  let saved ← get
  modify fun p => { p with commented := false }
  if wide && !isText then
    leadAt a.fullStart
    modify fun p =>
      { p with heldStart := some a.fullStart
               heldStop := some a.stop
               variablesStop := if a.kind = .variableDeclarationList then some a.stop else p.variablesStop }
  r
  if wide then
    modify fun p =>
      { p with heldStart := saved.heldStart, heldStop := saved.heldStop, variablesStop := saved.variablesStop }
    if !isText then trailAt a.stop

/-- Prints a token of a node with the comments around it; `place` is where the trivia before it starts. The
answer is where the token ends. -/
def tokenAt (k : Kind) (place : Nat) (owner : Ast) (indentLead : Bool := false) : Printer Nat := do
  let start ← tokenAfter place
  if owner.fullStart ≠ place then
    let further ← if indentLead then pure !(← sameLine place start) else pure false
    indentedIf further (leadAt place)
  token k
  let stop := start + k.text.length
  if owner.stop ≠ stop then
    if owner.kind = .jsxExpression then trailWith stop withinLine else trailAt stop
  return stop

/-- Prints a token of a node for which its end does not matter. -/
def tokenOf (k : Kind) (place : Nat) (owner : Ast) : Printer Unit := do
  let _ ← tokenAt k place owner

/-- The comments at a place that a blank line sets apart from what follows. -/
def detachedComments (s : Source) (place : Nat) : List Comment :=
  let apart (a b : Nat) : Bool :=
    -- two line ends or more between the places
    let next := nextLine s a
    next ≤ b && s.lineEnd next < b
  let rec together : List Comment → List Comment
    | c :: d :: rest => if apart c.stop d.start then [c] else c :: together (d :: rest)
    | cs => cs
  let cs := together (s.leadingComments place)
  match cs.getLast? with
  | some last => if apart last.stop (s.skipTrivia place) then cs else []
  | none => []

/-- Prints statements with the comments that stand on their own before and behind them. -/
def withDetached (start stop : Nat) (r : Printer Unit) : Printer Unit := do
  let s ← source
  match detachedComments s start with
  | [] => pure ()
  | first :: rest =>
    if start ≠ first.start && !(← sameLine start first.start) then newLine
    (first :: rest).forM fun c => do
      remark c
      if c.endsLine then newLine else space
    modify fun p =>
      { p with detached := (start, ((first :: rest).getLast?.map (·.stop)).getD start) :: p.detached }
  r
  leadAt stop
  let p ← get
  if p.commented && !p.fresh then newLine

end LintRepair.Syntax.Print.Printer
