import LintRepair.Syntax.Grammar.Data
import LintRepair.Syntax.Grammar.Markup
import LintRepair.Syntax.References

/-!
# Files

The grammar's goals are tied to their productions, and a whole file is read as a list of statements.
-/
namespace LintRepair.Syntax.Grammar

open Reader in
/-- How a goal is read, given how the goals inside it are. -/
def produce (goals : Goals) : Goals
  | .statement => statement goals
  | .expression => expression goals
  | .assignment arrowTypes => assignment goals arrowTypes
  | .operation level => operation goals level
  | .operand => operand goals
  | .unary => unary goals
  | .access => access goals
  | .decoration => decoration goals
  | .primary => primary goals
  | .type => type goals
  | .typeOperand => typeOperand goals
  | .pattern onPrivate => pattern goals onPrivate
  | .markup inExpression firstRoot parent isUnary => markup goals inExpression firstRoot parent isUnary
  | .namespaceBody => namespaceBody goals

/-- Reads goals that lie at most so deep in each other. -/
def goalsWithin : Nat → Goals
  | 0, _ => Reader.absent .identifier
  | depth + 1, goal => produce (fun inner => goalsWithin depth inner) goal

/-- Goals lie inside each other at most a dozen times for every token. -/
def depthOf (s : Source) : Nat := 16 * (s.size + 4)

/-- Reads goals of a file of any depth. -/
def goalsOf (s : Source) : Goals := goalsWithin (depthOf s)

/-! ## Statements that wait -/

/-- What is inside such a node never waits where the node stands: it is about types, or brings in or gives
out names, or has a body that runs at another time. -/
def waitsApart : Kind → Bool
  | .typeParameter | .propertySignature | .methodSignature | .callSignature | .constructSignature
  | .indexSignature | .typePredicate | .typeReference | .functionType | .constructorType | .typeQuery
  | .typeLiteral | .arrayType | .tupleType | .optionalType | .restType | .unionType | .intersectionType
  | .conditionalType | .inferType | .parenthesizedType | .thisType | .typeOperator | .indexedAccessType
  | .mappedType | .literalType | .namedTupleMember | .templateLiteralType | .templateLiteralTypeSpan
  | .importType | .interfaceDeclaration | .typeAliasDeclaration | .enumDeclaration | .moduleDeclaration
  | .namespaceExportDeclaration | .importEqualsDeclaration | .importDeclaration | .exportAssignment
  | .exportDeclaration | .missingDeclaration | .functionDeclaration | .functionExpression | .arrowFunction
  | .constructorDeclaration => true
  | _ => false

/-- In such a node a plain name says what the node itself or a part of a value is called. -/
def namesApart : Kind → Bool
  | .metaProperty | .jsxAttribute | .jsxNamespacedName => false
  | _ => true

/-- A member without a body, or a declaration of what is elsewhere. -/
def onlyDeclared (i : NodeInfo) (children : List Ast) : Bool :=
  match i.kind with
  | .methodDeclaration | .getAccessor | .setAccessor => children.all (·.info.label ≠ .body)
  | .variableStatement | .classDeclaration => children.any (·.kind = .declareKeyword)
  | _ => false

/-- The name `await` stands in the node where it could be an operator. -/
def mayAwait : Ast → Bool
  | .node i children =>
    if i.kind = .identifier then i.text.toString = "await"
    else if waitsApart i.kind || onlyDeclared i children then false
    else anyMayAwait i.kind children
where
  /-- It stands so in one of the children of a node of the given kind. -/
  anyMayAwait (parent : Kind) : List Ast → Bool
    | [] => false
    | a :: rest =>
      let isName := a.kind = .identifier && namesApart parent
        && (a.info.label = .name || a.info.label = .propertyName)
      let runsLater := a.info.label = .body
        && (parent = .methodDeclaration || parent = .getAccessor || parent = .setAccessor)
      (!isName && !runsLater && mayAwait a) || anyMayAwait parent rest

/-- The node is about the module that it stands in. -/
def mentionsModule : Ast → Bool
  | .node i children =>
    (i.kind = .metaProperty && i.token = .importKeyword) || anyMentionsModule children
where
  /-- One of the nodes is. -/
  anyMentionsModule : List Ast → Bool
    | [] => false
    | a :: rest => mentionsModule a || anyMentionsModule rest

/-- A statement that makes its file a module. -/
def makesModule (a : Ast) : Bool :=
  match a.kind with
  | .importDeclaration | .exportAssignment | .exportDeclaration => true
  | .importEqualsDeclaration => a.children.any (·.kind = .externalModuleReference)
  | _ => a.hasModifier .exportKeyword

/-- The first index from `i` on of a statement that satisfies `p`. -/
def indexFrom? (p : Ast → Bool) (statements : Array Branch) (i : Nat) : Option Nat :=
  ((List.range statements.size).drop i).find? fun k => p (statements.getD k default)

/-- The complaints from the first one at or behind `start` on, up to the first one at or behind `stop`. -/
def complaintsBetween (cs : List Complaint) (start : Nat) (stop : Option Nat) : List Complaint :=
  let behind := cs.dropWhile fun c => c.start < start
  match stop with
  | none => behind
  | some stop => behind.takeWhile fun c => c.start < stop

/-- Reads statements in which `await` is an operator up to the start of statement `kept` of the old ones,
or of a later one that does not wait; the answer is the index of that one. -/
def rereadUntil (goals : Goals) (old : Array Branch) :
    Nat → Option Nat → Array Branch → Reader (Array Branch × Option Nat)
  | 0, kept, acc => return (acc, kept)
  | fuel + 1, kept, acc => do
    if ← Reader.isAt .endOfFileToken then return (acc, kept)
    let start ← Reader.here
    let a ← goals .statement
    if start = (← Reader.here) then Reader.next
    let acc := acc.push a
    match kept with
    | none => rereadUntil goals old fuel none acc
    | some k =>
      let next := (old.getD k default).fullStart
      if a.stop = next then return (acc, kept)
      else if a.stop > next then
        rereadUntil goals old fuel (indexFrom? (!mayAwait ·) old (k + 1)) acc
      else rereadUntil goals old fuel kept acc

/-- Reads the statements that may wait again, as a module has them. -/
def rereadAwaiting (goals : Goals) (old : Array Branch) (saved : List Complaint) :
    Nat → Nat → Array Branch → State → Array Branch × State
  | 0, _, acc, s => (acc, s)
  | fuel + 1, i, acc, s =>
    let first := (old.getD i default).fullStart
    match indexFrom? mayAwait old i with
    | none => (acc ++ old.extract i old.size, s.complainAll (complaintsBetween saved first none))
    | some k =>
      let start := (old.getD k default).fullStart
      let s := (s.complainAll (complaintsBetween saved first (some start))).startAt start
      let reading := Reader.within (fun c => { c with awaits := true })
        (rereadUntil goals old (s.source.size + 2) (indexFrom? (!mayAwait ·) old k) (acc ++ old.extract i k))
      let ((acc, kept), s) := reading.run s
      match kept with
      | none => (acc, s)
      | some j => rereadAwaiting goals old saved fuel j acc s

/-! ## A whole file -/

/-- Reads the statements of a file and the end behind them. -/
def readOnce (goals : Goals) : Reader (Items × Branch) := do
  let items ← if (← Reader.dialect).data then Reader.dataStatements goals
    else Reader.list .sourceElements (goals .statement)
  let last ← Reader.tokenNode
  return (items, last)

/-- The statements of a file that is no module, or in which nothing waits, are read once. -/
def isReread (d : Dialect) (statements : List Branch) : Bool :=
  statements.any (fun a => makesModule a || mentionsModule a) && !d.ambient && statements.any (mayAwait ·)

/-- Reads a file, and the statements that may wait once more if it is a module. What was complained about is
complained about again where the statement is not read again. -/
def readFile (goals : Goals) (s : State) : Ast × State :=
  let ((items, last), s) := (readOnce goals).run (s.startAt 0)
  let old := items.nodes.toArray
  let (nodes, s) :=
    if isReread s.dialect items.nodes then
      let (nodes, s) := rereadAwaiting goals old s.complaints.toList (old.size + 1) 0 #[]
        { s with complaints := #[] }
      (nodes.toList, s)
    else (items.nodes, s)
  let parts := Parts.many .statements { items with nodes } ++ .one .endOfFile last
  (.node { kind := .sourceFile, start := s.source.skipTrivia 0, stop := s.source.size, lists := parts.lists }
    (parts.children.map (·.ast)), s)

end Grammar

/-- A file that has been read. -/
structure SourceFile where
  source : Source
  dialect : Dialect := {}
  ast : Ast
  complaints : List Complaint
deriving Inhabited

open Grammar in
/-- The statements of a file are read once more. -/
def SourceFile.isReread (dialect : Dialect) (source : Source) : Bool :=
  let ((items, _), _) := (readOnce (goalsOf source)).run (State.startAt { source, dialect } 0)
  Grammar.isReread dialect items.nodes

open Grammar in
/-- Reads a file. -/
def SourceFile.read (dialect : Dialect) (source : Source) : SourceFile :=
  let (ast, s) := readFile (goalsOf source) { source, dialect }
  let atHead := if dialect.data then [] else source.referenceComplaints
  { source, dialect, ast, complaints := s.complaints.toList ++ atHead }

open Grammar in
/-- No file lies inside of a file. -/
theorem SourceFile.fileless_read (dialect : Dialect) (source : Source) :
    Ast.filelessAll (read dialect source).ast.children = true := by
  obtain ⟨bs, hbs⟩ : ∃ bs : List Branch, (read dialect source).ast.children = bs.map (·.ast) := ⟨_, rfl⟩
  rw [hbs, Ast.filelessAll_iff]
  intro a ha
  obtain ⟨b, -, rfl⟩ := List.mem_map.mp ha
  exact b.fileless

end LintRepair.Syntax
