import LintRepair.Syntax.Ast
import LintRepair.Syntax.Token.Scan

/-!
# The state of reading a file

The grammar reads tokens one at a time, complains about what it does not find and goes on as well as it
can. Looking ahead and trying a reading leave everything as it was, except that a place where no arrow
function starts is remembered.
-/
namespace LintRepair.Syntax.Grammar

/-- What the surroundings make of some words. -/
structure Context where
  /-- The word `in` is no operator. -/
  noIn : Bool := false
  yields : Bool := false
  awaits : Bool := false
  inDecorator : Bool := false
  /-- A type may not be a conditional one. -/
  noConditional : Bool := false
deriving DecidableEq, Repr, Inhabited

/-- The lists that a construct may be part of. -/
inductive ListContext where
  | sourceElements | blockStatements | switchClauses | clauseStatements | typeMembers | classMembers
  | enumMembers | heritageTypes | declared | objectPattern | arrayPattern | arguments | properties
  | markupAttributes | markupChildren | arrayElements | parameters | typeParameters | typeArguments
  | tupleElements | heritageClauses | specifiers | importAttributes
deriving DecidableEq, Repr, Inhabited

structure State where
  source : Source
  dialect : Dialect := {}
  token : Token := {}
  context : Context := {}
  /-- The lists that are being read. -/
  lists : List ListContext := []
  complaints : Array Complaint := #[]
  /-- Places of brackets that open no arrow function. -/
  noArrows : List Nat := []
deriving Inhabited

namespace State

/-- Reports a cause at an offset, unless the report before is on the same one. -/
def complainAt (s : State) (start : Nat) (cause : Cause) (empty : Bool) : State :=
  if s.complaints.back?.any (·.start = start) then s
  else { s with complaints := s.complaints.push { start, cause, empty } }

/-- Makes a token the current one and reports what is wrong with it. -/
def accept (s : State) (t : Token) : State :=
  t.complaints.foldl (fun s c => s.complainAt c.start c.cause false) { s with token := t }

/-- Goes to the token at an offset. -/
def startAt (s : State) (start : Nat) : State := s.accept (s.source.token s.dialect {} start)

/-- Adds complaints that were made before. -/
def complainAll (s : State) (cs : List Complaint) : State := { s with complaints := s.complaints ++ cs }

/-- What no reading undoes: the source and the dialect stay, no complaint is withdrawn, and tokens stay sound. -/
structure Leads (s t : State) : Prop where
  source : t.source = s.source
  dialect : t.dialect = s.dialect
  complaints : s.complaints.toList <+: t.complaints.toList
  sound : s.token.Sound s.source → t.token.Sound t.source

theorem leads_refl (s : State) : s.Leads s := ⟨rfl, rfl, List.prefix_rfl, id⟩

theorem Leads.trans {s t u : State} (hst : s.Leads t) (htu : t.Leads u) : s.Leads u :=
  ⟨htu.source.trans hst.source, htu.dialect.trans hst.dialect, hst.complaints.trans htu.complaints,
    fun h => htu.sound (hst.sound h)⟩

theorem leads_complainAt (s : State) (start : Nat) (cause : Cause) (empty : Bool) :
    s.Leads (s.complainAt start cause empty) := by
  rw [complainAt]
  split
  · exact s.leads_refl
  · refine ⟨rfl, rfl, ?_, id⟩
    rw [Array.toList_push]
    exact List.prefix_append _ _

theorem leads_complaints (cs : List Complaint) (s : State) :
    s.Leads (cs.foldl (fun s c => s.complainAt c.start c.cause false) s) := by
  induction cs generalizing s with
  | nil => exact s.leads_refl
  | cons c rest ih => exact (s.leads_complainAt _ _ _).trans (ih _)

theorem leads_accept (s : State) {t : Token} (h : s.token.Sound s.source → t.Sound s.source) :
    s.Leads (s.accept t) := by
  have htoken : s.Leads { s with token := t } := ⟨rfl, rfl, List.prefix_rfl, h⟩
  exact htoken.trans (leads_complaints t.complaints _)

theorem leads_startAt (s : State) : s.Leads (s.startAt 0) :=
  s.leads_accept fun _ => Source.sound_token _ _ (.inl rfl)

theorem source_startAt (s : State) (start : Nat) : (s.startAt start).source = s.source :=
  (leads_complaints _ _).source

end State

/-- A reading of part of a file. -/
structure Reader (α : Type) where
  run : State → α × State
  leads : ∀ s : State, s.Leads (run s).2

namespace Reader

variable {α β : Type}

protected def pure (a : α) : Reader α := ⟨fun s => (a, s), State.leads_refl⟩

protected def bind (x : Reader α) (f : α → Reader β) : Reader β where
  run s :=
    match x.run s with
    | (a, t) => (f a).run t
  leads s := (x.leads s).trans ((f (x.run s).1).leads (x.run s).2)

instance : Monad Reader where
  pure := Reader.pure
  bind := Reader.bind

def state : Reader State := ⟨fun s => (s, s), State.leads_refl⟩

def change (f : State → State) (h : ∀ s : State, s.Leads (f s)) : Reader Unit := ⟨fun s => ((), f s), h⟩

def kind : Reader Kind := return (← state).token.kind

def isAt (k : Kind) : Reader Bool := return (← state).token.kind = k

def isAtAny (ks : List Kind) : Reader Bool := return ks.contains (← state).token.kind

def tokenStart : Reader Nat := return (← state).token.start

/-- Where the next node starts, with the trivia before it. -/
def here : Reader Nat := return (← state).token.fullStart

def afterLineEnd : Reader Bool := return (← state).token.afterLineEnd

def dialect : Reader Dialect := return (← state).dialect

def context : Reader Context := return (← state).context

/-- Reports a cause at an offset. -/
def complainAt (start : Nat) (cause : Cause) (empty : Bool := false) : Reader Unit :=
  change (·.complainAt start cause empty) fun s => s.leads_complainAt start cause empty

/-- Reports a cause at the current token. -/
def complain (cause : Cause) : Reader Unit := do
  complainAt (← tokenStart) cause (← isAt .endOfFileToken)

/-- Makes a sound token the current one and reports what is wrong with it. -/
def accept (t : State → Token) (h : ∀ s : State, s.token.Sound s.source → (t s).Sound s.source) :
    Reader Unit :=
  change (fun s => s.accept (t s)) fun s => s.leads_accept (h s)

/-- Goes on to the next token. -/
def advance : Reader Unit :=
  accept (fun s => s.source.token s.dialect s.token s.token.stop) fun _ h =>
    Source.sound_token _ _ (.inr h.le_stop)

/-- Cuts the current token down to its first character. -/
def cutTo (k : Kind) (hk : k.isFixed = false) : Reader Unit :=
  accept (·.token.cutTo k) fun _ h => h.cutTo hk

/-- Goes on to the next token; a word that is written with an escape is no keyword. -/
def next : Reader Unit := do
  let s ← state
  if s.token.kind.isListedWord && s.token.escaped then complain .escapedKeyword
  advance

/-- The next token's kind, which becomes the current one. -/
def nextKind : Reader Kind := do
  next
  kind

/-- Reads ahead and comes back. -/
def peek (r : Reader α) : Reader α where
  run s :=
    match r.run s with
    | (a, t) => (a, { s with noArrows := t.noArrows })
  leads _ := ⟨rfl, rfl, List.prefix_rfl, id⟩

/-- Reads ahead and comes back only from a failure. -/
def attempt (r : Reader (Option α)) : Reader (Option α) where
  run s :=
    match r.run s with
    | (some a, t) => (some a, t)
    | (none, t) => (none, { s with noArrows := t.noArrows })
  leads s := by
    have h := r.leads s
    split
    · next hrun => exact hrun ▸ h
    · exact ⟨rfl, rfl, List.prefix_rfl, id⟩

/-- Reads ahead and comes back unless the answer is yes. -/
def attemptIf (r : Reader Bool) : Reader Bool := do
  return (← attempt (do if ← r then return some () else return none)).isSome

def setContext (c : Context) : Reader Unit :=
  change (fun s => { s with context := c }) fun _ => ⟨rfl, rfl, List.prefix_rfl, id⟩

/-- Reads in other surroundings. -/
def within (f : Context → Context) (r : Reader α) : Reader α := do
  let saved ← context
  setContext (f saved)
  let a ← r
  setContext saved
  return a

def allowingIn (r : Reader α) : Reader α := within (fun c => { c with noIn := false }) r

/-- Reads a token of the given kind if there is one. -/
def skip? (k : Kind) : Reader Bool := do
  if ← isAt k then
    next
    return true
  else return false

/-- Reads a token of the given kind or complains with the given cause. -/
def expectOr (k : Kind) (cause : Cause) : Reader Bool := do
  if ← isAt k then
    next
    return true
  else
    complain cause
    return false

def expect (k : Kind) : Reader Bool := expectOr k (.expected k.text)

/-- Complains unless the token is of the given kind, and stays at it. -/
def expectHere (k : Kind) (cause : Cause) : Reader Bool := do
  if ← isAt k then return true
  else
    complain cause
    return false

end Reader

/-! ## Nodes -/

/-- A node of a file: neither the node nor any node inside is a file. -/
structure Branch where
  ast : Ast
  fileless : ast.fileless = true

namespace Branch

instance : Coe Branch Ast := ⟨ast⟩

def info (b : Branch) : NodeInfo := b.ast.info

def kind (b : Branch) : Kind := b.ast.kind

def fullStart (b : Branch) : Nat := b.ast.fullStart

def start (b : Branch) : Nat := b.ast.start

def stop (b : Branch) : Nat := b.ast.stop

def text (b : Branch) : Text := b.ast.text

def isMissing (b : Branch) : Bool := b.ast.isMissing

def list? (b : Branch) (label : Label) : Option ListExtent := b.ast.list? label

def hasModifier (b : Branch) (k : Kind) : Bool := b.ast.hasModifier k

def has (b : Branch) (label : Label) : Bool := b.ast.has label

/-- A node with the given children; the kind of a file is left to the file itself. -/
def node (info : NodeInfo) (children : List Branch) : Branch where
  ast := .node { info with kind := if info.kind = .sourceFile then .unknown else info.kind }
    (children.map ast)
  fileless := by
    refine Ast.fileless_iff.mpr ⟨?_, Ast.filelessAll_iff.mpr fun c hc => ?_⟩
    · change (if info.kind = .sourceFile then Kind.unknown else info.kind) ≠ .sourceFile
      split
      · nofun
      · assumption
    · obtain ⟨b, -, rfl⟩ := List.mem_map.mp hc
      exact b.fileless

instance : Inhabited Branch := ⟨node default []⟩

def children (b : Branch) : List Branch :=
  b.ast.children.attach.map fun c => ⟨c.1, Ast.filelessAll_iff.mp (Ast.filelessAll_of_fileless b.fileless) c.1 c.2⟩

def as (b : Branch) (label : Label) : Branch := ⟨b.ast.as label, (b.ast.fileless_as label).trans b.fileless⟩

/-- The first child with a label. -/
def child? (b : Branch) (label : Label) : Option Branch := b.children.find? (·.info.label = label)

/-- The children with a label. -/
def childrenOf (b : Branch) (label : Label) : List Branch := b.children.filter (·.info.label = label)

end Branch

/-- Children and the extents of lists among them, in order. -/
structure Parts where
  children : List Branch := []
  lists : List ListExtent := []

namespace Parts

def append (a b : Parts) : Parts :=
  ⟨a.children ++ b.children,
    a.lists ++ b.lists.map fun l => { l with index := l.index + a.children.length }⟩

instance : Append Parts := ⟨append⟩

def none : Parts := {}

def one (l : Label) (a : Branch) : Parts := ⟨[a.as l], []⟩

def maybe (l : Label) (a : Option Branch) : Parts := ⟨(a.map (·.as l)).toList, []⟩

end Parts

/-- A list of nodes as it stands in the source. -/
structure Items where
  nodes : List Branch := []
  start : Nat := 0
  stop : Nat := 0
  trailingComma : Bool := false
  missing : Bool := false
deriving Inhabited

def Parts.many (l : Label) (xs : Items) : Parts :=
  ⟨xs.nodes.map (·.as l), [⟨l, 0, xs.start, xs.stop, xs.trailingComma, xs.missing⟩]⟩

def Parts.manyMaybe (l : Label) (xs : Option Items) : Parts :=
  match xs with
  | some xs => .many l xs
  | Option.none => {}

namespace Reader

/-- A node that ends where the trivia of the current token starts. Trivia alone belongs to no node, and a node
of no width starts where it ends. -/
def finish (k : Kind) (fullStart : Nat) (parts : Parts)
    (f : NodeInfo → NodeInfo := fun i => i) : Reader Branch := do
  let s ← state
  let stop := s.token.fullStart
  let start := if fullStart = stop && k ≠ .endOfFileToken then fullStart else s.source.skipTrivia fullStart
  return .node { f { kind := k, lists := parts.lists } with fullStart, start, stop } parts.children

/-- The current token as a node. -/
def tokenNode : Reader Branch := do
  let t := (← state).token
  next
  finish t.kind t.fullStart .none fun i => { i with text := t.value }

/-- The current token as a node, if it is of the given kind. -/
def tokenNode? (k : Kind) : Reader (Option Branch) := do
  if ← isAt k then return some (← tokenNode) else return none

/-- A node of no width at the current token. -/
def absent (k : Kind) : Reader Branch := do finish k (← here) .none

/-- A node of no width; the complaint is on the current token. -/
def missing (k : Kind) (cause : Cause) : Reader Branch := do
  complain cause
  absent k

/-- A node of no width; the complaint is where the trivia before the current token starts. -/
def missingHere (k : Kind) (cause : Cause) : Reader Branch := do
  complainAt (← here) cause true
  absent k

/-- The token of the given kind as a node, which may be missing. -/
def expectNode (k : Kind) (cause : Cause) : Reader Branch := do
  match ← tokenNode? k with
  | some a => return a
  | none => missing k cause

def expectToken (k : Kind) : Reader Branch := expectNode k (.expected k.text)

/-- A list without elements at the current token. -/
def noItems : Reader Items := do
  let start ← here
  return { start, stop := start, missing := true }

/-- Reads the bracket that closes what an opening one began. -/
def closeBracket (k : Kind) : Reader Unit := do
  let _ ← expect k

/-! ## Ends of statements -/

/-- A statement may end here. -/
def mayEnd : Reader Bool := do
  return (← isAtAny [.semicolonToken, .closeBraceToken, .endOfFileToken]) || (← afterLineEnd)

/-- Ends a statement if it may end here. -/
def end? : Reader Bool := do
  if ← mayEnd then
    let _ ← skip? .semicolonToken
    return true
  else return false

def endStatement : Reader Unit := do
  if !(← end?) then
    let _ ← expect .semicolonToken

/-- The text of a node without trivia. -/
def sourceText (a : Branch) : Reader String := do
  return ((← state).source.slice a.start a.stop).toString

end Reader
end LintRepair.Syntax.Grammar
