import LintRepair.Yaml.Excerpt
import LintRepair.Yaml.Lexeme.Scan
import LintRepair.Yaml.Resolve

/-!
# Reading YAML

A text holds one document; its value is read with every alias replaced by the value it stands for. The
first complaint about the document wins.
-/
namespace LintRepair.Yaml

/-! ## Documents -/

/-- The documents of a text as far as they have been read. -/
structure Reader where
  /-- The first document, its setting and the complaints about it. -/
  first : Option (Setting × Node × List Complaint) := none
  /-- The range of the second document. -/
  second : Option (Nat × Nat) := none
  /-- Complaints that belong to the document that follows. -/
  pending : List Complaint := []
  atDirectives : Bool := false
  handles : TagHandles := [("!!", tagHome)]
  schema : Schema := .core
deriving Inhabited

namespace Reader

/-- The complaint about a token outside every document. -/
def misplaced (t : Token) (message : String) : Complaint :=
  .atToken t (if t.source.isEmpty then message else message ++ ": " ++ Value.quoted (String.ofList t.source))

/-- The words of a line. -/
def words (cs : List Char) : List (List Char) :=
  (cs.splitBy fun a b => isBlank a = isBlank b).filter fun w => !w.any isBlank

/-- Lets a handle stand for the start of tags. -/
def setHandle (handle home : String) (handles : TagHandles) : TagHandles :=
  if handles.any (·.1 = handle) then handles.map fun h => if h.1 = handle then (handle, home) else h
  else handles ++ [(handle, home)]

/-- Two numbers with a point between them. -/
def isVersion (s : String) : Bool :=
  let cs := s.toList
  let minor := (cs.dropWhile Char.isDigit).drop 1
  cs.head?.any Char.isDigit && (cs.dropWhile Char.isDigit).head? = some '.' && !minor.isEmpty
    && minor.all Char.isDigit

def directive (r : Reader) (t : Token) : Reader :=
  let bad (message : String) (r : Reader) : Reader := { r with pending := r.pending ++ [.atToken t message] }
  let r := { r with atDirectives := true }
  match (words t.source).map String.ofList with
  | "%TAG" :: handle :: home :: rest =>
    let r := if rest.isEmpty then r else bad "%TAG directive should contain exactly two parts" r
    { r with handles := setHandle handle home r.handles }
  | "%TAG" :: _ => bad "%TAG directive should contain exactly two parts" r
  | ["%YAML", "1.1"] => { r with schema := .elder }
  | ["%YAML", "1.2"] => { r with schema := .core }
  | ["%YAML", version] =>
    if isVersion version then r
    else { r with pending := r.pending ++
      [⟨t.offset + 6, t.stop, "Unsupported YAML version " ++ version⟩] }
  | "%YAML" :: _ => bad "%YAML directive should contain exactly one part" r
  | _ => r

/-- The node of a document and the offset behind it. -/
def compose (c : Setting) (offset : Nat) (start : List Token) (value : Option Draft) (tail : List Token) :
    Compose (Placed × Bool) := do
  let props ← Props.read
    { indicator := .documentStart, following := .ofValue value tail, offset, parentIndent := 0
      startOnNewline := true } start
  if props.found.isSome && value.any (·.isBlockCollection) && !props.hasNewline then
    complainAt props.stop "Block collection cannot start on same line with directives-end marker"
  let placed ← match value with
    | some d => nodeOf c props d
    | none => emptyNode c props props.stop start
  let _ ← readTail tail placed.stop false
  return (placed, props.found.isSome)

def complainFirst (r : Reader) (cs : List Complaint) : Reader :=
  match r.first, r.second with
  | some (c, node, complaints), none => { r with first := some (c, node, complaints ++ cs) }
  | _, _ => r

def next (r : Reader) : Chunk → Reader
  | .directive t => r.directive t
  | .misplaced t message =>
    let c := misplaced t message
    if r.atDirectives || r.first.isNone then { r with pending := r.pending ++ [c] } else r.complainFirst [c]
  | .documentEnd marker tail =>
    if r.first.isNone then
      { r with pending := r.pending ++ [.atToken marker "Unexpected doc-end without preceding document"] }
    else
      let (_, complaints) := (readTail tail marker.stop true).run r.pending
      { r.complainFirst complaints with pending := [] }
  | .document offset start value tail =>
    let c : Setting := { handles := r.handles, schema := r.schema, atRoot := true }
    let ((placed, marked), complaints) := (compose c offset start value tail).run r.pending
    let complaints := if r.atDirectives && !marked
      then complaints ++ [.atOffset offset "Missing directives-end/doc-start indicator line"] else complaints
    let r := { r with pending := [], atDirectives := false }
    match r.first with
    | none => { r with first := some (c, placed.node, complaints) }
    | some _ => { r with second := r.second.or (some (offset, placed.stop)) }

/-- The only document's node with its setting and the complaints about it. -/
def finish (r : Reader) (stop : Nat) : Setting × Node × List Complaint :=
  match r.first, r.second with
  | some (c, node, complaints), none => (c, node, complaints ++ r.pending)
  | some (c, node, complaints), some (start, stop) =>
    (c, node, complaints ++
      [⟨start, stop, "Source contains multiple documents; please use YAML.parseAllDocuments()"⟩])
  | none, _ =>
    ({ handles := r.handles, schema := r.schema }, .empty,
      r.pending ++ if r.atDirectives then [.atOffset stop "Missing directives-end indicator line"] else [])

end Reader

/-- The value of a YAML text, or what is wrong with the text. -/
def parse (s : String) : Except String Value :=
  let text := Text.ofString s
  let reader := (chunks (lexemes s.toList)).foldl Reader.next {}
  match reader.finish text.length with
  | (_, _, complaint :: _) => .error (complaint.report text)
  | (c, node, []) => node.value? c

end LintRepair.Yaml
