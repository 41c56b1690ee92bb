import LintRepair.Yaml.Draft.Build
import LintRepair.Yaml.Scalar
import LintRepair.Yaml.Schema

/-!
# Nodes of YAML documents

A node is made of a draft, and every rule that the draft breaks becomes a complaint, in the order in which
the parts are looked at.
-/
namespace LintRepair.Yaml

inductive ScalarStyle where
  | plain
  | singleQuoted
  | doubleQuoted
  | block
deriving DecidableEq, Repr, Inhabited

structure Scalar where
  datum : Datum
  style : ScalarStyle
  /-- The text as it was read. -/
  source : List Char
deriving DecidableEq, Repr, Inhabited

inductive Node where
  | scalar (s : Scalar)
  | reference (name : String)
  | sequence (items : List Node)
  /-- A mapping, or a set of keys. A value may be left out. -/
  | mapping (isSet : Bool) (pairs : List (Node × Option Node))
  /-- A list of pairs; if ordered, they make a mapping. -/
  | pairs (ordered : Bool) (pairs : List (Node × Option Node))
  | labelled (anchor tag : Option String) (node : Node)
deriving Inhabited

namespace Node

/-- A plain scalar without text. -/
def empty : Node := .scalar ⟨.null, .plain, []⟩

/-- The node without its labels. -/
def bare : Node → Node
  | labelled _ _ n => n.bare
  | n => n

def isMapping (n : Node) : Bool := match n.bare with
  | mapping .. => true
  | _ => false

end Node

/-- A node with the offset behind it. -/
structure Placed where
  node : Node
  stop : Nat
deriving Inhabited

abbrev Compose := StateM (List Complaint)

def complain (c : Complaint) : Compose Unit := modify (· ++ [c])

def complainAt (offset : Nat) (message : String) : Compose Unit := complain (.atOffset offset message)

def complainOf (t : Token) (message : String) : Compose Unit := complain (.atToken t message)

/-! ## What stands before a value -/

/-- What follows the tokens before a value: a value, a token, or nothing. -/
inductive Following where
  | value (d : Draft)
  | token (t : Token)
  | nothing

namespace Following

def isFlowCollection : Following → Bool
  | value (.flow _ _ _ _ _) => true
  | _ => false

def isBlockCollection : Following → Bool
  | value d => d.isBlockCollection
  | _ => false

/-- The offset at which a value follows without a blank in between. -/
def touching? : Following → Option Nat
  | value (.flowScalar head _) => if head.kind = .scalar && head.source.isEmpty then none else some head.offset
  | value d => some d.offset
  | token t => match t.kind with
    | .space | .newline | .comma => none
    | _ => some t.offset
  | nothing => none

def ofValue (value : Option Draft) (behind : List Token) : Following :=
  match value, behind with
  | some d, _ => .value d
  | none, t :: _ => .token t
  | none, [] => .nothing

end Following

/-- Where the tokens before a value stand. -/
structure PropsPlace where
  /-- The name of the flow collection around them. -/
  flow : Option String := none
  /-- The indicator that is expected among them. -/
  indicator : LexemeKind
  following : Following
  offset : Nat
  parentIndent : Nat
  startOnNewline : Bool

/-- What the tokens before a value say. -/
structure Props where
  comma : Option Token := none
  found : Option Token := none
  hasNewline : Bool := false
  anchor : Option Token := none
  tag : Option Token := none
  newlineAfterProp : Option Token := none
  stop : Nat := 0
  start : Option Nat := none
  atNewline : Bool := false
  hasSpace : Bool := false
  /-- A tag or an anchor has just ended. -/
  needsSpace : Bool := false
  tab : Option Token := none
deriving Inhabited

namespace Props

def separated : String := "Tags and anchors must be separated from the next token by white space"

def noTabs : String := "Tabs are not allowed as indentation"

def isProp (p : Props) : Bool := p.anchor.isSome || p.tag.isSome

/-- Where the properties of a value begin. -/
def begins (p : Props) : Nat := p.start.getD p.stop

def addToken (place : PropsPlace) (p : Props) (t : Token) : Compose Props := do
  if p.needsSpace && t.kind ≠ .space && t.kind ≠ .newline && t.kind ≠ .comma then complainAt t.offset separated
  match p.tab with
  | some tab => if p.atNewline && t.kind ≠ .comment && t.kind ≠ .newline then complainOf tab noTabs
  | none => pure ()
  let p := { p with needsSpace := false, tab := none }
  let plain (p : Props) : Props := { p with atNewline := false, hasSpace := false }
  let unexpected : Compose Props := do
    complainOf t ("Unexpected " ++ t.kind.label ++ " token")
    return plain p
  match t.kind with
  | .space =>
    let counts := place.flow.isNone
      && (place.indicator ≠ .documentStart || !place.following.isFlowCollection) && t.source.contains '\t'
    return { p with tab := if counts then some t else none, hasSpace := true }
  | .comment =>
    if !p.hasSpace then complainOf t "Comments must be separated from other tokens by white space characters"
    return { p with atNewline := false }
  | .newline =>
    return { p with atNewline := true, hasNewline := true, hasSpace := true
                    newlineAfterProp := if p.isProp then some t else p.newlineAfterProp }
  | .anchor =>
    if p.anchor.isSome then complainOf t "A node can have at most one anchor"
    return { plain p with anchor := some t, start := p.start.or (some t.offset), needsSpace := true }
  | .tag =>
    if p.tag.isSome then complainOf t "A node can have at most one tag"
    return { plain p with tag := some t, start := p.start.or (some t.offset), needsSpace := true }
  | kind =>
    if kind = place.indicator then
      let sign := String.ofList t.source
      if p.isProp then complainOf t ("Anchors and tags must be after the " ++ sign ++ " indicator")
      if p.found.isSome then
        complainOf t ("Unexpected " ++ sign ++ " in " ++ place.flow.getD "collection")
      return { p with found := some t, hasSpace := false
                      atNewline := place.indicator = .sequenceItem || place.indicator = .explicitKey }
    else if kind = .comma then
      match place.flow with
      | some flow =>
        if p.comma.isSome then complainOf t ("Unexpected , in " ++ flow)
        return { plain p with comma := some t }
      | none => unexpected
    else unexpected

/-- Looks through the tokens before a value. -/
def read (place : PropsPlace) (tokens : List Token) : Compose Props := do
  let p ← tokens.foldlM (addToken place)
    { atNewline := place.startOnNewline, hasSpace := place.startOnNewline }
  match place.following.touching? with
  | some offset => if p.needsSpace then complainAt offset separated
  | none => pure ()
  match p.tab with
  | some tab =>
    if (p.atNewline && tab.indent ≤ place.parentIndent) || place.following.isBlockCollection then
      complainOf tab noTabs
  | none => pure ()
  return { p with stop := (tokens.getLast?.map Token.stop).getD place.offset }

end Props

/-- Looks through what follows a value; the offset behind it is the answer. -/
def readTail (tokens : List Token) (offset : Nat) (needsSpace : Bool) : Compose Nat := do
  let mut spaced := false
  let mut offset := offset
  for t in tokens do
    match t.kind with
    | .space | .newline => spaced := true
    | .comment =>
      if needsSpace && !spaced then
        complainOf t "Comments must be separated from other tokens by white space characters"
    | kind => complainOf t ("Unexpected " ++ kind.label ++ " at node end")
    offset := offset + width t.source
  return offset

/-- The offset of an empty value: behind the blanks that follow the last token that counts. -/
def emptyOffset (offset : Nat) (before : List Token) : Nat :=
  let trivia := (before.reverse.takeWhile (·.kind.isTrivia)).reverse
  if trivia.length = before.length then offset - totalWidth (trivia.map (·.source))
  else
    offset - totalWidth (trivia.map (·.source))
      + totalWidth ((trivia.takeWhile (·.kind = .space)).map (·.source))

/-! ## Tags -/

/-- The handles that `%TAG` lines define, with what they stand for. -/
abbrev TagHandles := List (String × String)

/-- What a value has to know of its surroundings. -/
structure Setting where
  handles : TagHandles
  schema : Schema
  /-- No collection is around. -/
  atRoot : Bool := false
  asKey : Bool := false

namespace Setting

/-- Inside a collection. -/
def inside (c : Setting) : Setting := { c with atRoot := false, asKey := false }

/-- A key of a collection. -/
def forKey (c : Setting) : Setting := { c with atRoot := false, asKey := true }

end Setting

/-- The bytes of a text in which a percent sign and two digits may stand for one. -/
def percentBytes : List Char → List UInt8
  | '%' :: a :: b :: rest =>
    match Number.digits? 16 [a, b] with
    | some n => n.toUInt8 :: percentBytes rest
    | none => (String.ofList ['%']).toUTF8.toList ++ percentBytes (a :: b :: rest)
  | c :: rest => (String.ofList [c]).toUTF8.toList ++ percentBytes rest
  | [] => []

/-- The full name of a tag. -/
def tagName (handles : TagHandles) (t : Token) : Compose (Option String) := do
  let source := String.ofList t.source
  match t.source with
  | ['!'] => return some "!"
  | '!' :: '<' :: rest =>
    let verbatim := String.ofList rest.dropLast
    if verbatim = "!" || verbatim = "!!" then
      complainOf t ("Verbatim tags aren't resolved, so " ++ source ++ " is invalid.")
      return none
    if rest.getLast? ≠ some '>' then complainOf t "Verbatim tags must end with a >"
    return some verbatim
  | cs =>
    let suffix := (cs.reverse.takeWhile (· ≠ '!')).reverse
    let handle := String.ofList (cs.take (cs.length - suffix.length))
    if suffix.isEmpty then complainOf t ("The " ++ source ++ " tag has no suffix")
    match handles.lookup handle with
    | some home =>
      match String.fromUTF8? ⟨(percentBytes suffix).toArray⟩ with
      | some name => return some (home ++ name)
      | none =>
        complainOf t "URIError: URI malformed"
        return none
    | none =>
      if handle = "!" then return some source
      complainOf t ("Could not resolve tag: " ++ source)
      return none

/-- The full name of a value's tag. -/
def Props.tagName? (handles : TagHandles) (props : Props) : Compose (Option String) :=
  match props.tag with
  | none => return none
  | some t => tagName handles t

/-! ## Values -/

/-- A node with its tag and its anchor. -/
def withLabels (props : Props) (tag : Option String) (n : Node) : Compose Node := do
  let anchor := props.anchor.map fun a => String.ofList a.source.tail
  match props.anchor with
  | some a => if a.source.length = 1 then complainOf a "Anchor cannot be an empty string"
  | none => pure ()
  return if anchor.isNone && tag.isNone then n else .labelled anchor tag n

/-- The node of a scalar; only a plain one may stand for something else than a text without a tag. -/
def scalarNode (c : Setting) (props : Props) (style : ScalarStyle) (cs : List Char) : Compose Node := do
  let name ← props.tagName? c.handles
  let datum ← match name, props.tag with
    | some "!", _ => pure Datum.text
    | some name, some t => match c.schema.taggedDatum name cs with
      | .ok d => pure d
      | .error m => do
        complainOf t m
        pure .text
    | _, _ => pure (if style = .plain then c.schema.plainDatum c.asKey cs else .text)
  withLabels props name (.scalar ⟨datum, style, cs⟩)

def emptyNode (c : Setting) (props : Props) (offset : Nat) (before : List Token) : Compose Placed := do
  return ⟨← scalarNode c props .plain [], emptyOffset offset before⟩

mutual
/-- Whether a key goes over several lines. -/
def spansLines : Draft → Bool
  | .flowScalar head tail => head.source.contains '\n' || hasKind .newline tail
  | .flow _ _ _ entries _ => entriesSpanLines entries
  | _ => true

def entriesSpanLines : List Entry → Bool
  | [] => false
  | .mk start _ key sep value :: rest =>
    hasKind .newline start || sep.any (hasKind .newline) || optionSpansLines key || optionSpansLines value
      || entriesSpanLines rest

def optionSpansLines : Option Draft → Bool
  | none => false
  | some d => spansLines d
end

/-- Whether two keys are the same scalar. -/
def sameKey (a b : Node) : Bool :=
  match a.bare, b.bare with
  | .scalar a, .scalar b => match a.datum, b.datum with
    | .null, .null => true
    | .bool a, .bool b => a = b
    | .number .nan _, _ => false
    | .number a _, .number b _ => a = b
    | .text, .text => a.source = b.source
    | _, _ => false
  | _, _ => false

def includesKey (pairs : List (Node × Option Node)) (key : Node) : Bool := pairs.any fun p => sameKey p.1 key

/-- A block sequence may not follow its properties on one line. -/
def checkSequenceProps (props : Props) : Compose Unit :=
  let last := match props.anchor, props.tag with
    | some a, some t => some (if t.offset < a.offset then a else t)
    | a, t => a.or t
  match last with
  | none => return
  | some last =>
    if props.newlineAfterProp.all (·.offset < last.offset) then
      complainOf last "Missing newline after block sequence props"
    else return

/-- A value that a set may have: none. -/
def isVoid : Option Node → Bool
  | none => true
  | some (.scalar s) => s.datum = .null
  | some (.labelled _ none (.scalar s)) => s.datum = .null
  | some _ => false

/-- The pair that an item of a list of pairs stands for. -/
def pairOf (n : Node) : Node × Option Node :=
  match n.bare with
  | .mapping _ (p :: _) => p
  | .mapping _ [] => (.empty, none)
  | _ => (n, none)

/-- The keys that come again, each time that they do. -/
def repeatedKeys : List Node → List Node → List Node
  | _, [] => []
  | seen, key :: rest => if seen.any (sameKey · key) then key :: repeatedKeys seen rest
    else repeatedKeys (key :: seen) rest

/-- The text of a scalar's value. -/
def Node.keyWord (n : Node) : String :=
  match n.bare with
  | .scalar s => match s.datum with
    | .null => "null"
    | .bool b => if b then "true" else "false"
    | .number n _ => n.text
    | _ => String.ofList s.source
  | _ => ""

/-- A collection with a tag of the given name, which may make another kind of collection of it. -/
def taggedCollection (t : Token) (name : String) (n : Node) : Compose Node := do
  let named (s : String) : Bool := name = tagHome ++ s
  match n with
  | .mapping _ pairs =>
    if !named "set" then return n
    if pairs.all fun p => isVoid p.2 then return .mapping true pairs
    complainOf t "Set items must all have null values"
    return n
  | .sequence items =>
    if !named "omap" && !named "pairs" then return n
    items.forM fun item => match item.bare with
      | .mapping _ (_ :: _ :: _) => complainOf t "Each pair must have its own sequence indicator"
      | _ => return
    let pairs := items.map pairOf
    if named "omap" then
      (repeatedKeys [] (pairs.map (·.1))).forM fun key =>
        complainOf t ("Ordered maps must not include duplicate keys: " ++ key.keyWord)
    return .pairs (named "omap") pairs
  | _ => return n

/-- The node of a collection with its properties, of which the name of the tag is known. -/
def collectionNode (props : Props) (name : Option String) (n : Node) : Compose Node := do
  let common (s : String) : Bool := name = some "!" || name = some (tagHome ++ s)
  let tag := match n with
    | .sequence _ => if common "seq" then some (tagHome ++ "seq") else name
    | _ => if common "map" then some (tagHome ++ "map") else name
  match name, props.tag with
  | some name, some t => withLabels props tag (← taggedCollection t name n)
  | _, _ => withLabels props tag n

def sameColumn : String := "All mapping items must start at the same column"

/-- How much of a line a key may take. -/
def keyLimit : Nat := 1024

def singleLine : String := "Implicit keys of flow sequence pairs need to be on a single line"

def unclosed (atRoot : Bool) (name closing : String) : String :=
  if atRoot then name ++ " must end with a " ++ closing
  else name ++ " in block collection must be sufficiently indented and end with a " ++ closing

def checkBlock (d : Option Draft) (n : Placed) : Compose Unit :=
  match d with
  | some d =>
    if d.isBlockCollection then
      complain ⟨d.offset, n.stop, "Block collections are not allowed within flow collections"⟩
    else return
  | none => return

mutual
/-- The node of a draft. -/
def nodeOf (c : Setting) (props : Props) : Draft → Compose Placed
  | .flowScalar head tail => do
    if head.kind = .reference then
      if head.source.length = 1 then complainAt head.offset "Alias cannot be an empty string"
      let stop ← readTail tail head.stop true
      if props.isProp then complainOf head "An alias node must not specify any properties"
      return ⟨.reference (String.ofList head.source.tail), stop⟩
    else
      let (text, complaints) := flowText head
      complaints.forM complain
      let stop ← readTail tail head.stop true
      let style : ScalarStyle := match head.kind with
        | .singleQuoted => .singleQuoted
        | .doubleQuoted => .doubleQuoted
        | _ => .plain
      return ⟨← scalarNode c props style text, stop⟩
  | .blockScalar offset indent header source => do
    let (text, complaints) := blockText c.atRoot offset indent header source
    complaints.forM complain
    let node ← scalarNode c props .block text
    return ⟨node, offset + totalWidth (header.map (·.source)) + width source⟩
  | .misplaced t message => do
    complainOf t message
    emptyNode c props t.offset []
  | .blockMap offset indent entries => do
    let name ← props.tagName? c.handles
    let (pairs, stop) ← mapPairs c indent [] offset entries
    return ⟨← collectionNode props name (.mapping false pairs), stop⟩
  | .blockSequence offset indent entries => do
    let name ← props.tagName? c.handles
    checkSequenceProps props
    let (items, stop) ← sequenceItems c indent offset entries
    return ⟨← collectionNode props name (.sequence items), stop⟩
  | .flow offset indent opening entries tail => do
    let name ← props.tagName? c.handles
    let isMap := opening.kind = .flowMapStart
    let (pairs, stop) ← flowPairs c indent isMap 0 [] (offset + 1) entries
    let title := if isMap then "Flow map" else "Flow sequence"
    let closing := if isMap then "\x7d" else "]"
    let (close, rest) ← match tail with
      | t :: rest =>
        if String.ofList t.source = closing then pure (t.stop, rest)
        else
          complainAt stop (unclosed c.atRoot title closing)
          pure (stop, if t.source.length = 1 then rest else t :: rest)
      | [] => do
        complainAt stop (unclosed c.atRoot title closing)
        pure (stop, [])
    let stop ← readTail rest close true
    let node := if isMap then Node.mapping false pairs else .sequence (pairs.map (·.1))
    return ⟨← collectionNode props name node, stop⟩

/-- The pairs of a block map and the offset behind them. -/
def mapPairs (c : Setting) (indent : Nat) (pairs : List (Node × Option Node)) (offset : Nat) :
    List Entry → Compose (List (Node × Option Node) × Nat)
  | [] => return (pairs, offset)
  | .mk start _ key sep value :: rest => do
    let keyProps ← Props.read
      { indicator := .explicitKey, following := .ofValue key (sep.getD []), offset, parentIndent := indent
        startOnNewline := true } start
    let implicit := keyProps.found.isNone
    match keyProps.found, key with
    | some found, _ => if found.indent ≠ indent then complainAt offset sameColumn
    | none, some d =>
      if d.isBlockSequence then complainAt offset "A block sequence may not be used as an implicit map key"
      else if d.indent?.any (· ≠ indent) then complainAt offset sameColumn
    | none, none => pure ()
    if implicit && !keyProps.isProp && sep.isNone then mapPairs c indent pairs offset rest
    else
      if implicit && (keyProps.newlineAfterProp.isSome || optionSpansLines key) then
        let message := "Implicit keys need to be on a single line"
        match key, start.getLast? with
        | some d, _ => complain ⟨d.range.1, d.range.2, message⟩
        | none, some t => complainOf t message
        | none, none => pure ()
      let keyStart := keyProps.stop
      let keyNode ← optionalNode c.forKey keyProps keyStart start key
      let keyRange := (key.map (·.span)).getD (keyNode.stop, keyNode.stop)
      if includesKey pairs keyNode.node then complainAt keyStart "Map keys must be unique"
      let valueProps ← Props.read
        { indicator := .mapValue, following := .ofValue value [], offset := keyNode.stop, parentIndent := indent
          startOnNewline := key.all fun d => match d with
            | .blockScalar _ _ _ _ => true
            | _ => false } (sep.getD [])
      match valueProps.found with
      | some found =>
        if implicit then
          let isMap : Bool := match value with
            | some (.blockMap _ _ _) => true
            | _ => false
          if isMap && !valueProps.hasNewline then
            complainAt valueProps.stop "Nested mappings are not allowed in compact mappings"
          if keyProps.begins + keyLimit < found.offset then
            complain ⟨keyRange.1, keyRange.2, "The : indicator must be at most 1024 chars after the start of an implicit block mapping key"⟩
        let valueNode ← optionalNode c.inside valueProps valueProps.stop (sep.getD []) value
        mapPairs c indent (pairs ++ [(keyNode.node, some valueNode.node)]) valueNode.stop rest
      | none =>
        if implicit then
          complain ⟨keyRange.1, keyRange.2, "Implicit map keys need to be followed by map values"⟩
        mapPairs c indent (pairs ++ [(keyNode.node, none)]) valueProps.stop rest

/-- The items of a block sequence and the offset behind them. -/
def sequenceItems (c : Setting) (indent offset : Nat) : List Entry → Compose (List Node × Nat)
  | [] => return ([], offset)
  | .mk start _ _ _ value :: rest => do
    let props ← Props.read
      { indicator := .sequenceItem, following := .ofValue value [], offset, parentIndent := indent
        startOnNewline := true } start
    if props.found.isNone && !props.isProp && value.isNone then sequenceItems c indent offset rest
    else
      if props.found.isNone then
        if value.any (·.isBlockSequence) then
          complainAt props.stop "All sequence items must start at the same column"
        else complainAt offset "Sequence item without - indicator"
      let node ← optionalNode c.inside props props.stop start value
      let (items, stop) ← sequenceItems c indent node.stop rest
      return (node.node :: items, stop)

/-- The pairs of a flow collection, or its items as the first parts of pairs, and the offset behind them. -/
def flowPairs (c : Setting) (indent : Nat) (isMap : Bool) (index : Nat) (pairs : List (Node × Option Node))
    (offset : Nat) : List Entry → Compose (List (Node × Option Node) × Nat)
  | [] => return (pairs, offset)
  | .mk start _ key sep value :: rest => do
    let name := if isMap then "flow map" else "flow sequence"
    let props ← Props.read
      { flow := some name, indicator := .explicitKey, following := .ofValue key (sep.getD []), offset
        parentIndent := indent, startOnNewline := false } start
    let bare := props.found.isNone
    if bare && !props.isProp && sep.isNone && value.isNone then
      match index, props.comma with
      | 0, some comma => complainOf comma ("Unexpected , in " ++ name)
      | _, _ => if !rest.isEmpty then complainAt props.begins ("Unexpected empty item in " ++ name)
      flowPairs c indent isMap (index + 1) pairs props.stop rest
    else
      if bare && !isMap && optionSpansLines key then
        match key with
        | some d => complain ⟨d.range.1, d.range.2, singleLine⟩
        | none => pure ()
      match index, props.comma with
      | 0, some comma => complainOf comma ("Unexpected , in " ++ name)
      | 0, none => pure ()
      | _, none => complainAt props.begins ("Missing , between " ++ name ++ " items")
      | _, some _ => pure ()
      if !isMap && sep.isNone && bare then
        let node ← optionalNode c.inside props props.stop (sep.getD []) value
        checkBlock value node
        flowPairs c indent isMap (index + 1) (pairs ++ [(node.node, none)]) node.stop rest
      else
        let keyStart := props.stop
        let keyNode ← optionalNode c.forKey props keyStart start key
        checkBlock key keyNode
        let valueProps ← Props.read
          { flow := some name, indicator := .mapValue, following := .ofValue value [], offset := keyNode.stop
            parentIndent := indent, startOnNewline := false } (sep.getD [])
        match valueProps.found, value with
        | some found, _ =>
          if !isMap && bare then
            match ((sep.getD []).takeWhile (· ≠ found)).find? (·.kind = .newline) with
            | some t => complainOf t singleLine
            | none => pure ()
            if props.begins + keyLimit < found.offset then
              complainOf found "The : indicator must be at most 1024 chars after the start of an implicit flow sequence key"
        | none, some d =>
          match d with
          | .flowScalar head _ =>
            if head.source.head? = some ':' then complainOf head ("Missing space after : in " ++ name)
            else complainAt valueProps.begins ("Missing , or : between " ++ name ++ " items")
          | _ => complainAt valueProps.begins ("Missing , or : between " ++ name ++ " items")
        | none, none => pure ()
        let (valueNode, stop) ←
          if valueProps.found.isSome || value.isSome then do
            let v ← optionalNode c.inside valueProps valueProps.stop (sep.getD []) value
            checkBlock value v
            pure (some v.node, v.stop)
          else pure (none, valueProps.stop)
        if isMap && includesKey pairs keyNode.node then complainAt keyStart "Map keys must be unique"
        let pair := (keyNode.node, valueNode)
        flowPairs c indent isMap (index + 1)
          (pairs ++ [if isMap then pair else (.mapping false [pair], none)]) stop rest

/-- The node of a value that may be missing. -/
def optionalNode (c : Setting) (props : Props) (offset : Nat) (before : List Token) :
    Option Draft → Compose Placed
  | some d => nodeOf c props d
  | none => emptyNode c props offset before
end

end LintRepair.Yaml
