import LintRepair.Yaml.Written

/-!
# Values of nodes

Every alias is replaced by the value that it stands for, keys become names, and mappings are merged where the
schema says so.
-/
namespace LintRepair.Yaml

/-- The value of a scalar. Moments, bytes and merge keys are objects of their own kinds. -/
def Scalar.value (s : Scalar) : Value :=
  match s.datum with
  | .null => .null
  | .bool b => .bool b
  | .number n _ => .number n
  | .text => .text (String.ofList s.source)
  | .moment t => .special "Date" (.text (Timestamp.text t))
  | .bytes bs => .special "Buffer" (.record [("type", .text "Buffer"), ("data", .list (bs.map .nat))])
  | .merge => .special "symbol" .null

/-- A value that is an object shows no more of itself where it is not complete. -/
def Node.outline : Node → Value
  | .scalar s => s.value
  | .reference _ => .null
  | .sequence _ | .pairs false _ => .list []
  | .pairs true _ => .special "Map" (.record [])
  | .mapping true _ => .special "Set" (.record [])
  | .mapping false _ => .record []
  | .labelled _ _ n => n.outline

/-- A named node. -/
structure Anchor where
  name : String
  node : Node
  /-- The value of the node, once it is complete. -/
  value : Option Value := none
  /-- How often the value stands in the document so far. -/
  uses : Nat := 1
  /-- The most copies that one leaf of the node stands for, as first counted. -/
  copies : Nat := 0
deriving Inhabited

/-- The anchors so far, the last one first. -/
abbrev Resolve := StateT (List Anchor) (Except String)

namespace Resolve

/-- More copies of a value than this are an attack. -/
def maxCopies : Nat := 100

/-- Nodes that are deeper than this are not resolved. -/
def maxDepth : Nat := 5000

mutual
/-- The most copies that one leaf of a node stands for. -/
def copies (anchors : List Anchor) : Node → Nat
  | .scalar _ => 1
  | .reference name => match anchors.find? (·.name = name) with
    | some a => a.uses * a.copies
    | none => 0
  | .sequence items => copiesInAll anchors items
  | .mapping _ pairs | .pairs _ pairs => copiesInPairs anchors pairs
  | .labelled _ _ n => copies anchors n

def copiesInAll (anchors : List Anchor) : List Node → Nat
  | [] => 0
  | n :: rest => max (copies anchors n) (copiesInAll anchors rest)

def copiesInPairs (anchors : List Anchor) : List (Node × Option Node) → Nat
  | [] => 0
  | (key, none) :: rest => max (copies anchors key) (copiesInPairs anchors rest)
  | (key, some value) :: rest =>
    max (max (copies anchors key) (copies anchors value)) (copiesInPairs anchors rest)
end

/-- Changes the anchor with a given number. -/
def changeAnchor (number : Nat) (f : Anchor → Anchor) : Resolve Unit :=
  modify fun anchors => anchors.modify (anchors.length - 1 - number) f

/-- The value of an alias, which counts as one more use of it. -/
def ofAlias (name : String) : Resolve Value := do
  let anchors ← get
  match anchors.findIdx? (·.name = name) with
  | none => throw ("Unresolved alias (the anchor must be set before the alias): " ++ name)
  | some i =>
    let anchors := anchors.modify i fun a => { a with uses := a.uses + 1 }
    let anchors := anchors.modify i fun a =>
      if a.copies = 0 then { a with copies := copies anchors a.node } else a
    set anchors
    match anchors[i]? with
    | none => return .null
    | some a =>
      if maxCopies < a.uses * a.copies then
        throw "Excessive alias count indicates a resource exhaustion attack"
      return a.value.getD a.node.outline

/-! ## Keys -/

/-- The name of a scalar key. -/
def plainName? : Value → Option String
  | .null => some ""
  | .bool b => some (if b then "true" else "false")
  | .number n => some n.text
  | .text s => some s
  | .special "symbol" _ => some "Symbol(<<)"
  | _ => none

/-- The bytes as text. -/
def byteText (bs : List Nat) : String :=
  (String.fromUTF8? ⟨(bs.map (·.toUInt8)).toArray⟩).getD "\ufffd"

/-- The name that a key with a value has in a record. -/
def keyName (c : Setting) (key : Node) (v : Value) : String :=
  match plainName? v with
  | some name => name
  | none =>
    match key.bare with
    | .scalar s => match s.datum with
      | .moment t => Timestamp.longText t
      | .bytes bs => byteText bs
      | _ => String.ofList s.source
    | _ => key.written c.schema c.handles

mutual
/-- The name that a key of a merged mapping has in a record. -/
def mergedName : Value → String
  | .null => "null"
  | .list vs => String.intercalate "," (mergedItems vs)
  | .record _ => "[object Object]"
  | .special kind _ => "[object " ++ kind ++ "]"
  | v => (plainName? v).getD ""

def mergedItems : List Value → List String
  | [] => []
  | .null :: rest => "" :: mergedItems rest
  | v :: rest => mergedName v :: mergedItems rest
end

/-- Two values are the same key of a mapping that keeps the kinds of its keys. -/
def isSame : Value → Value → Bool
  | .null, .null => true
  | .bool a, .bool b => a = b
  | .number a, .number b => a = b
  | .text a, .text b => a = b
  | _, _ => false

/-! ## Mappings -/

/-- What a mapping does with a value, one after the other. -/
inductive Step where
  /-- Puts it under a key with a name. -/
  | put (key : Value) (name : String) (value : Value)
  /-- Adds it under a key that is not there yet. -/
  | add (key : Value) (value : Value)

/-- Sets a field; one that is there keeps its place. -/
def setField {α : Type} (same : α → Bool) (key : α) (v : Value) (fields : List (α × Value)) : List (α × Value) :=
  if fields.any (same ·.1) then fields.map fun f => if same f.1 then (f.1, v) else f
  else fields ++ [(key, v)]

/-- The fields of a record. -/
def fieldsOf (steps : List Step) : List (String × Value) :=
  steps.foldl (fun fields step => match step with
    | .put _ name v => setField (· = name) name v fields
    | .add key v =>
      let name := mergedName key
      if fields.any (·.1 = name) then fields else fields ++ [(name, v)]) []

/-- The entries of a mapping that keeps the kinds of its keys. -/
def entriesOf (steps : List Step) : List (Value × Value) :=
  steps.foldl (fun entries step => match step with
    | .put key _ v => setField (isSame key) key v entries
    | .add key v => if entries.any (isSame key ·.1) then entries else entries ++ [(key, v)]) []

/-- The key asks for its value to be merged into the mapping. -/
def isMergeKey (schema : Schema) (key : Node) : Bool :=
  match key.bare with
  | .scalar s => s.datum = .merge || (schema = .elder && s.style = .plain && s.datum = .text && s.source = ['<', '<'])
  | _ => false

/-- The node that is merged: an alias stands for the node that it names. -/
def mergeSource (n : Node) : Resolve (Option Node) := do
  match n with
  | .reference name => return ((← get).find? (·.name = name)).map (·.node)
  | n => return some n

def badSource {α : Type} : Resolve α := throw "Merge sources must be maps or map aliases"

mutual
/-- The value of a node that is at most as deep as given. -/
def value (c : Setting) : Nat → Node → Resolve Value
  | 0, _ => throw "Maximum call stack size exceeded"
  | depth + 1, n => do
    match n with
    | .scalar s => return s.value
    | .reference name => ofAlias name
    | .labelled none _ n => value c depth n
    | .labelled (some name) _ n =>
      let number := (← get).length
      modify ({ name, node := n } :: ·)
      let v ← value c depth n
      changeAnchor number ({ · with value := some v })
      return v
    | .sequence items => return .list (← items.mapM (value c depth))
    | .mapping false pairs => return .record (fieldsOf (← steps c depth pairs))
    | .mapping true pairs =>
      pairs.forM fun p => do
        let _ ← value c depth p.1
      return n.outline
    | .pairs false pairs =>
      return .list (← pairs.mapM fun p => return .record (fieldsOf (← steps c depth [p])))
    | .pairs true pairs =>
      let _ ← pairs.foldlM (fun keys p => do
        let key ← value c depth p.1
        match p.2 with
        | some v => let _ ← value c depth v
        | none => pure ()
        if keys.any (isSame key) then throw "Ordered maps must not include duplicate keys"
        return key :: keys) []
      return n.outline

/-- What a mapping does with its pairs. -/
def steps (c : Setting) : Nat → List (Node × Option Node) → Resolve (List Step)
  | 0, _ => throw "Maximum call stack size exceeded"
  | depth + 1, pairs => do
    let each (p : Node × Option Node) : Resolve (List Step) := do
      if isMergeKey c.schema p.1 then
        let source ← match p.2 with
          | some v => mergeSource v
          | none => pure none
        match source.map Node.bare with
        | some (.sequence items) =>
          return (← items.mapM fun item => merged c depth item).flatten
        | some (.mapping ..) => merged c depth (p.2.getD .empty)
        | _ => badSource
      else
        let key ← value c depth p.1
        let v ← match p.2 with
          | some v => value c depth v
          | none => pure .null
        return [.put key (keyName c p.1 key) v]
    return (← pairs.mapM each).flatten

/-- What merging a mapping does. -/
def merged (c : Setting) : Nat → Node → Resolve (List Step)
  | 0, _ => throw "Maximum call stack size exceeded"
  | depth + 1, n => do
    let source ← mergeSource n
    match n with
    | .labelled (some _) _ _ => let _ ← value c depth n
    | _ => pure ()
    match source.map Node.bare with
    | some (.mapping false pairs) => return (entriesOf (← steps c depth pairs)).map fun e => .add e.1 e.2
    | some (.mapping true _) => return []
    | _ => badSource
end

end Resolve

/-- The value of a document's node. -/
def Node.value? (c : Setting) (n : Node) : Except String Value :=
  ((Resolve.value c Resolve.maxDepth n).run []).map (·.1)

end LintRepair.Yaml
