import LintRepair.Files.Route
import LintRepair.Rule
import LintRepair.Syntax.Data
import LintRepair.Syntax.Grammar.File
import LintRepair.Syntax.Untyped

/-!
# Source files as trees

A source file is read, its syntax errors are listed, and its syntax tree becomes a template in which what is
no node is text.
-/
namespace LintRepair.Syntax

/-- The mark that may begin a text and is no part of its source. -/
def withoutMark (text : Text) : Text :=
  match text with
  | 0xFEFF :: rest => rest
  | text => text

/-- The dialect that a file's name stands for. -/
def Dialect.ofPath (path : String) : Dialect :=
  let name := Path.basename path
  let ext := (Path.suffix path).toLower
  let data := ext = ".json"
  let untyped := data || [".js", ".jsx", ".mjs", ".cjs"].contains ext
  { markup := untyped || ext = ".tsx"
    untyped
    data
    ambient := [".d.ts", ".d.mts", ".d.cts"].any fun e => name.endsWith e && name ≠ e }

namespace SourceFile

/-- The syntax errors of a file, each once, in the order of their places: what could not be read, what only
a typed file may have, and what is no data in a file of data. -/
def errors (f : SourceFile) : List Complaint :=
  let found := (if f.dialect.untyped then Untyped.inside f.source f.ast else []) ++ f.complaints
    ++ if f.dialect.data then Data.ofFile f.source f.ast else []
  (found.mergeSort Complaint.notAfter).eraseDups

/-- The text of a node without trivia. -/
def textOf (f : SourceFile) (a : Ast) : Text := f.source.slice a.start a.stop

/-- The wording of a syntax error, with its line. -/
def describe (text : Text) (c : Complaint) : String :=
  "line " ++ toString (text.lineColumn c.start).1 ++ ": " ++ c.cause.message

end SourceFile

/-! ## Templates -/

/-- Templates in the order in which they start, with the text between them. What has no width, overlaps what
is before it or ends behind `stop` is left out. -/
def assemble (text : Source) (stop : Nat) : List (Span × Template) → Nat → Pieces
  | [], cursor => if cursor < stop then .text (text.slice cursor stop) .nil else .nil
  | (span, t) :: rest, cursor =>
    if span.stop ≤ span.start || span.start < cursor || stop < span.stop then
      assemble text stop rest cursor
    else
      let node := t.consPieces (assemble text stop rest span.stop)
      if cursor < span.start then .text (text.slice cursor span.start) node else node

/-- The template of a node at a place. Without `rooted` it has neither spans nor origins. -/
def templateOf (text : Source) (rooted : Bool) (place : Place) (a : Ast) : Template :=
  match a with
  | .node i children =>
    let start := if i.kind = .sourceFile then 0 else i.start
    let inner := (go place children 0).mergeSort fun x y => x.1.start ≤ y.1.start
    { kind := i.kind.name
      span := if rooted then some ⟨start, i.stop⟩ else none
      origin := if rooted then some place else none
      body := assemble text i.stop inner start }
where
  /-- The templates of the children from the given index on, with their extents. -/
  go (place : Place) : List Ast → Nat → List (Span × Template)
    | [], _ => []
    | c :: rest, index =>
      (⟨c.start, c.stop⟩, templateOf text rooted (index :: place) c) :: go place rest (index + 1)

/-- Reads a file as a tree. -/
def parse (text : Text) (path : String) : Except Fault (Template × SourceFile) :=
  let plain := withoutMark text
  let f := SourceFile.read (.ofPath path) (.ofText plain)
  match f.errors with
  | [] => .ok (templateOf (.ofText text) true [] f.ast, f)
  | c :: cs => .error (.unparsable path (SourceFile.describe plain c) (cs.length + 1))

/-! ## Snippets -/

/-- The extension under which snippets for a file are read. -/
def snippetExtension (path : String) : String :=
  let ext := (Path.extension path).toLower
  if [".ts", ".tsx", ".mts", ".cts", ".js", ".jsx", ".mjs", ".cjs"].contains ext then ext else ".ts"

/-- Reads a snippet inside what is around it and picks its node. -/
def snippet (path description : String) (code before behind : Text) (pick : SourceFile → Option Ast) :
    Except Fault Template :=
  let whole := before ++ code ++ behind
  let plain := withoutMark whole
  let f := SourceFile.read (.ofPath ("snippet" ++ snippetExtension path)) (.ofText plain)
  match f.errors with
  | c :: _ => .error (.invalidFragment description code.toString (SourceFile.describe plain c))
  | [] =>
    match pick f with
    | none => .error (.notSingleFragment description code.toString)
    | some a => .ok (templateOf (.ofText whole) false [] a)

/-- What stands in the brackets of a file's first statement. -/
def inBrackets (f : SourceFile) : Option Ast := do
  let statement ← (f.ast.childrenOf .statements).head?
  if statement.kind = .expressionStatement then
    let e ← statement.child? .expression
    if e.kind = .parenthesizedExpression then e.child? .expression else none
  else none

/-- How snippets for a file are read. -/
def fragments (path : String) : Fragments where
  statement code := snippet path "statement" code [] [] fun f =>
    match f.ast.childrenOf .statements with
    | [a] => some a
    | _ => none
  expression code :=
    snippet path "expression" code (Text.ofString "(") (Text.ofString ");") inBrackets
  clause code :=
    snippet path "clause" code (Text.ofString "switch (0) \x7b\n") (Text.ofString "\n\x7d") fun f => do
      let statement ← (f.ast.childrenOf .statements).head?
      let block ← if statement.kind = .switchStatement then statement.child? .block else none
      match block.childrenOf .clauses with
      | [a] => some a
      | _ => none
  binaryOperator code :=
    snippet path "binary operator" code (Text.ofString "(0 ") (Text.ofString " 0);") fun f => do
      let e ← inBrackets f
      if e.kind = .binaryExpression then e.child? .operator else none

end LintRepair.Syntax
