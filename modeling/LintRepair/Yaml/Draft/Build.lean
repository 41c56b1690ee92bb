import LintRepair.Yaml.Draft

/-!
# From lexemes to drafts

Lexemes are taken one by one into a stack of unfinished values. A lexeme that the topmost value has no
place for finishes it: it becomes part of the value below, which is asked next.
-/
namespace LintRepair.Yaml

/-- An unfinished part of the text. -/
inductive Frame where
  | document (offset : Nat) (start : List Token) (value : Option Draft) (tail : List Token)
  | documentEnd (marker : Token) (tail : List Token)
  | value (d : Draft)

instance : Inhabited Frame := ⟨.value default⟩

structure Builder where
  atNewLine : Bool := true
  /-- The indentation of the current line as far as it is known. -/
  indent : Nat := 0
  offset : Nat := 0
  /-- A key of the innermost block map stands on this line. -/
  onKeyLine : Bool := false
  stack : List Frame := []
  /-- The finished chunks, the last one first. -/
  chunks : List Chunk := []

instance : Inhabited Builder := ⟨{}⟩

/-- Changes the last item of a list. -/
def modifyLast {α : Type} (f : α → α) : List α → List α
  | [] => []
  | [a] => [f a]
  | a :: rest => a :: modifyLast f rest

/-- Splits off the properties of a key: what stands behind the last indicator or line end, blanks apart. -/
def splitKeyProps (ts : List Token) : List Token × List Token :=
  let stops (t : Token) : Bool := match t.kind with
    | .documentStart | .explicitKey | .mapValue | .sequenceItem | .newline => true
    | _ => false
  let behind := (ts.reverse.takeWhile fun t => !stops t).reverse
  let props := behind.dropWhile (·.kind = .space)
  (ts.take (ts.length - props.length), props)

/-- In a flow sequence, an entry that looked like a key but is none is a value. -/
def settleSequenceEntry (e : Entry) : Entry :=
  match e.sep with
  | some sep =>
    if e.value.isNone && !hasKind .explicitKey e.start && !hasKind .mapValue sep then
      match e.key with
      | some key => if key.isFlow then .mk e.start e.explicit none none (some (key.addTail sep))
        else .mk (e.start ++ sep) e.explicit none none (some key)
      | none => .mk (e.start ++ sep) e.explicit none none none
    else e
  | none => e

namespace Draft

/-- A flow collection whose entries are told apart. -/
def settled : Draft → Draft
  | flow offset indent opening entries tail =>
    flow offset indent opening
      (if opening.kind = .flowSequenceStart then entries.map settleSequenceEntry else entries) tail
  | d => d

/-- A block collection without its last entry if that belongs to what follows. -/
def splitLeftover (d : Draft) : Draft × Option (List Token) :=
  let split (indent : Nat) (entries : List Entry) : Option (List Entry × List Token) :=
    match entries.getLast? with
    | some e => if e.isLeftover indent then some (entries.dropLast, e.start) else none
    | none => none
  match d with
  | blockMap offset indent entries => match split indent entries with
    | some (entries, left) => (blockMap offset indent entries, some left)
    | none => (d, none)
  | blockSequence offset indent entries => match split indent entries with
    | some (entries, left) => (blockSequence offset indent entries, some left)
    | none => (d, none)
  | d => (d, none)

end Draft

namespace Frame

/-- The indentation that a block scalar in this place is measured from. -/
def indent : Frame → Nat
  | value d => d.indent?.getD 0
  | _ => 0

def isDocument : Frame → Bool
  | document _ _ _ _ => true
  | _ => false

/-- The tokens before the value that is about to begin. -/
def leading : Frame → List Token
  | document _ start _ _ => start
  | value (.blockMap _ _ entries) => match entries.getLast? with
    | some e => e.sep.getD e.start
    | none => []
  | value (.blockSequence _ _ entries) => (entries.getLast?.map Entry.start).getD []
  | _ => []

def withLeading (ts : List Token) : Frame → Frame
  | document offset _ v tail => document offset ts v tail
  | value (.blockMap offset indent entries) =>
    value (.blockMap offset indent (modifyLast (fun e => match e.sep with
      | some _ => e.withSep (some ts)
      | none => e.withStart ts) entries))
  | value (.blockSequence offset indent entries) =>
    value (.blockSequence offset indent (modifyLast (·.withStart ts) entries))
  | f => f

end Frame

namespace Builder

def emit (b : Builder) (c : Chunk) : Builder := { b with chunks := c :: b.chunks }

def push (b : Builder) (d : Draft) : Builder := { b with stack := .value d :: b.stack }

def setTop (b : Builder) (f : Frame) : Builder := { b with stack := f :: b.stack.tail }

/-- Makes a value part of the topmost unfinished one. -/
def attach (b : Builder) (d : Draft) : Builder :=
  match b.stack with
  | .document offset start _ tail :: _ =>
    let (d, left) := d.splitLeftover
    b.setTop (.document offset start (some d) (left.getD tail))
  | .value (.blockMap offset indent entries) :: _ =>
    let last := entries.getLast?.getD default
    if last.value.isSome then
      { b with onKeyLine := true }.setTop
        (.value (.blockMap offset indent (entries ++ [Entry.ofKey [] (some d) []])))
    else if last.sep.isSome then
      let (d, left) := d.splitLeftover
      b.setTop (.value (.blockMap offset indent
        (modifyLast (·.withValue (some d)) entries ++ (left.map Entry.ofStart).toList)))
    else
      { b with onKeyLine := !last.explicit }.setTop
        (.value (.blockMap offset indent (modifyLast (·.withKey (some d) []) entries)))
  | .value (.blockSequence offset indent entries) :: _ =>
    let last := entries.getLast?.getD default
    let (d, left) := d.splitLeftover
    let entries := if last.value.isSome then entries ++ [Entry.mk [] false none none (some d)]
      else modifyLast (·.withValue (some d)) entries
    b.setTop (.value (.blockSequence offset indent (entries ++ (left.map Entry.ofStart).toList)))
  | .value (.flow offset indent opening entries tail) :: _ =>
    let entries := match entries.getLast? with
      | none => [Entry.ofKey [] (some d) []]
      | some last =>
        if last.value.isSome then entries ++ [Entry.ofKey [] (some d) []]
        else if last.sep.isSome then modifyLast (·.withValue (some d)) entries
        else modifyLast (·.withKey (some d) []) entries
    b.setTop (.value (.flow offset indent opening entries tail))
  | _ => b

/-- Finishes the topmost value. -/
def pop (b : Builder) : Builder :=
  match b.stack with
  | [] => b
  | .document offset start v tail :: rest => { b with stack := rest }.emit (.document offset start v tail)
  | .documentEnd marker tail :: rest => { b with stack := rest }.emit (.documentEnd marker tail)
  | .value d :: rest =>
    let b := { b with stack := rest }
    match rest with
    | [] => b
    | below :: _ =>
      b.attach (match d with
        | .blockScalar offset _ header source => .blockScalar offset below.indent header source
        | .flow offset indent opening entries tail =>
          (Draft.flow offset (if below.isDocument then 0 else indent) opening entries tail).settled
        | d => d)

def popAll : Nat → Builder → Builder
  | 0, b => b
  | n + 1, b => if b.stack.isEmpty then b else popAll n b.pop

/-- Finishes flow collections that lie in each other. -/
def popFlows : Nat → Builder → Builder
  | 0, b => b
  | n + 1, b => match b.stack with
    | .value (.flow _ _ _ _ _) :: _ => popFlows n b.pop
    | _ => b

/-- The value that begins with a token, with what is left of the tokens before it. -/
def begin? (t : Token) (leading : List Token) : Option (Draft × List Token) :=
  match t.kind with
  | .reference | .scalar | .singleQuoted | .doubleQuoted => some (.flowScalar t [], leading)
  | .blockScalarHeader => some (.blockScalar t.offset t.indent [t] [], leading)
  | .flowMapStart | .flowSequenceStart => some (.flow t.offset t.indent t [] [], leading)
  | .sequenceItem => some (.blockSequence t.offset t.indent [.ofStart [t]], leading)
  | .explicitKey =>
    let (kept, props) := splitKeyProps leading
    some (.blockMap t.offset t.indent [.mk (props ++ [t]) true none none none], kept)
  | .mapValue =>
    let (kept, props) := splitKeyProps leading
    some (.blockMap t.offset t.indent [.ofKey props none [t]], kept)
  | _ => none

/-- Begins a value inside the topmost one, if the token begins one. -/
def begin (b : Builder) (t : Token) : Option Builder :=
  match b.stack with
  | [] => none
  | top :: rest => (begin? t top.leading).map fun (d, kept) =>
    { b with
      stack := .value d :: top.withLeading kept :: rest
      onKeyLine := b.onKeyLine || t.kind = .explicitKey || t.kind = .mapValue }

/-- A token outside every document. -/
def stream (t : Token) (b : Builder) : Builder :=
  match t.kind with
  | .directive => b.emit (.directive t)
  | .byteOrderMark | .space | .comment | .newline => b
  | .documentMode => { b with stack := [.document t.offset [] none []] }
  | .documentStart => { b with stack := [.document t.offset [t] none []] }
  | kind => b.emit (.misplaced t ("Unexpected " ++ kind.label ++ " token in YAML stream"))

/-- Whether a token ends every value on its line. -/
def endsLine : LexemeKind → Bool
  | .comma | .documentStart | .documentEnd | .flowSequenceEnd | .flowMapEnd | .mapValue => true
  | _ => false

/-- Adds a token to what follows the topmost value; a line end finishes the value. -/
def lineTail (t : Token) (b : Builder) : Builder :=
  let b := match b.stack with
    | .document offset start v tail :: _ => b.setTop (.document offset start v (tail ++ [t]))
    | .value d :: _ => b.setTop (.value (d.addTail [t]))
    | _ => b
  if t.kind = .newline then { b with onKeyLine := false }.pop else b

/-- Turns the topmost value into the first key of a block map. -/
def keyed (b : Builder) (key : Draft) (offset indent : Nat) (sep : List Token) : Builder :=
  match b.stack with
  | _ :: below :: rest =>
    let (kept, props) := splitKeyProps below.leading
    { b with
      onKeyLine := true
      stack := .value (.blockMap offset indent [.ofKey props (some key) sep]) :: below.withLeading kept :: rest }
  | _ => b

/-- A token that belongs to an indented comment goes to the value before. -/
def isIndentedComment (t : Token) (start : List Token) (indent : Nat) : Bool :=
  t.kind = .comment && indent < t.indent && start.all fun s => s.kind = .newline || s.kind = .space

/-- Whether a value has a tail that a comment can be added to. -/
def takesComment : Option Draft → Bool
  | some (.flow _ _ _ _ _) => true
  | some d => !d.tail.isEmpty
  | none => false

/-- A blank, a comment or a line end between the entries of a block collection. -/
def blockTrivia (t : Token) (indent : Nat) (entries : List Entry) : List Entry :=
  let last := entries.getLast?.getD default
  let before := entries.dropLast
  if t.kind = .newline then
    match last.value with
    | some v =>
      if (v.tail.getLast?.map (·.kind)) = some .comment then
        modifyLast (·.withValue (some (v.addTail [t]))) entries
      else entries ++ [Entry.ofStart [t]]
    | none => if last.sep.isSome then modifyLast (·.addSep [t]) entries else modifyLast (·.addStart t) entries
  else if last.value.isSome then entries ++ [Entry.ofStart [t]]
  else if last.sep.isSome then modifyLast (·.addSep [t]) entries
  else if isIndentedComment t last.start indent && takesComment (before.getLast?.bind Entry.value) then
    modifyLast (fun e => e.withValue (e.value.map (·.addTail (last.start ++ [t])))) before
  else modifyLast (·.addStart t) entries

/-- The tokens from the second line end on, with what comes before them, when only blank lines and comments
of the next entry follow the first line end. -/
def splitBlankLines (indent : Nat) (sep : List Token) : List Token × List Token :=
  let ends := sep.zipIdx.foldl (fun ends (t, i) => match t.kind with
    | .newline => ends ++ [i]
    | .space => ends
    | .comment => if indent < t.indent then [] else ends
    | _ => []) ([] : List Nat)
  match ends with
  | _ :: second :: _ => (sep.take second, sep.drop second)
  | _ => (sep, [])

/-- A colon in a block map. -/
def mapColon (t : Token) (b : Builder) (offset indent : Nat) (entries : List Entry) (start : List Token)
    (next : Bool) : Builder :=
  let b := { b with onKeyLine := true }
  let top (entries : List Entry) : Builder := b.setTop (.value (.blockMap offset indent entries))
  let nested (start : List Token) (key : Option Draft) (sep : List Token) : Draft :=
    .blockMap t.offset t.indent [.ofKey start key sep]
  let last := entries.getLast?.getD default
  match last.explicit, last.sep with
  | true, none =>
    if hasKind .newline last.start then top (modifyLast (·.withKey none [t]) entries)
    else
      let (kept, props) := splitKeyProps last.start
      (top (modifyLast (·.withStart kept) entries)).push (nested props none [t])
  | true, some sep =>
    if last.value.isSome then top (entries ++ [Entry.ofKey [] none [t]])
    else if hasKind .mapValue sep then (top entries).push (nested start none [t])
    else if last.key.any Draft.isFlow && !hasKind .newline sep then
      let (kept, props) := splitKeyProps last.start
      (top (modifyLast (fun e => .mk kept e.explicit none none e.value) entries)).push
        (nested props last.key (sep ++ [t]))
    else top (modifyLast (·.addSep (start ++ [t])) entries)
  | false, none => top (modifyLast (·.withKey none [t]) entries)
  | false, some sep =>
    if last.value.isSome || next then top (entries ++ [Entry.ofKey start none [t]])
    else if hasKind .mapValue sep then (top entries).push (nested [] none [t])
    else top (modifyLast (·.addSep [t]) entries)

/-- A token on a line of a block map that is indented enough; nothing if the map has no place for it. -/
def mapToken (t : Token) (b : Builder) (offset indent : Nat) (entries : List Entry) : Option Builder :=
  let last := entries.getLast?.getD default
  let atIndent := !b.onKeyLine && b.indent = indent
  let next := atIndent && (last.sep.isSome || last.explicit) && t.kind ≠ .sequenceItem
  let (entries, start) := match last.sep with
    | some sep =>
      if next && last.value.isNone then
        let (kept, start) := splitBlankLines indent sep
        (modifyLast (fun e => Entry.withSep e (some kept)) entries, start)
      else (entries, [])
    | none => (entries, [])
  let last := entries.getLast?.getD default
  let fresh := next || last.value.isSome
  let top (b : Builder) (entries : List Entry) : Builder := b.setTop (.value (.blockMap offset indent entries))
  let onLine := { b with onKeyLine := true }
  match t.kind with
  | .anchor | .tag =>
    if fresh then some (top onLine (entries ++ [Entry.ofStart (start ++ [t])]))
    else if last.sep.isSome then some (top b (modifyLast (·.addSep [t]) entries))
    else some (top b (modifyLast (·.addStart t) entries))
  | .explicitKey =>
    if last.sep.isNone && !last.explicit then
      some (top onLine (modifyLast (fun e => .mk (e.start ++ [t]) true e.key e.sep e.value) entries))
    else if fresh then some (top onLine (entries ++ [Entry.mk (start ++ [t]) true none none none]))
    else some ((top onLine entries).push (.blockMap t.offset t.indent [.mk [t] true none none none]))
  | .mapValue => some (mapColon t b offset indent entries start next)
  | .reference | .scalar | .singleQuoted | .doubleQuoted =>
    let d := Draft.flowScalar t []
    if fresh then some (top onLine (entries ++ [Entry.ofKey start (some d) []]))
    else if last.sep.isSome then some ((top b entries).push d)
    else some (top onLine (modifyLast (·.withKey (some d) []) entries))
  | _ =>
    (begin? t []).map fun (d, _) =>
      if d.isBlockSequence then
        if !last.explicit && last.sep.any (!hasKind .newline ·) then
          (top b entries).attach (.misplaced t "Unexpected block-seq-ind on same line with key")
        else (top b entries).push d
      else (top b (if atIndent then entries ++ [Entry.ofStart start] else entries)).push d

/-- A token in a block sequence; nothing if the sequence has no place for it. -/
def sequenceToken (t : Token) (b : Builder) (offset indent : Nat) (entries : List Entry) : Option Builder :=
  let last := entries.getLast?.getD default
  let top (entries : List Entry) : Builder := b.setTop (.value (.blockSequence offset indent entries))
  let value : Option Builder := if indent < b.indent then b.begin t else none
  match t.kind with
  | .anchor | .tag =>
    if last.value.isSome || b.indent ≤ indent then value else some (top (modifyLast (·.addStart t) entries))
  | .sequenceItem =>
    if b.indent ≠ indent then value
    else if last.value.isSome || hasKind .sequenceItem last.start then some (top (entries ++ [Entry.ofStart [t]]))
    else some (top (modifyLast (·.addStart t) entries))
  | _ => value

/-- A token in a flow collection that is still open; nothing if it has no place there. -/
def flowToken (t : Token) (b : Builder) (offset indent : Nat) (opening : Token) (entries : List Entry)
    (tail : List Token) : Option Builder :=
  let top (entries : List Entry) : Builder := b.setTop (.value (.flow offset indent opening entries tail))
  let last := entries.getLast?
  let fresh := last.all (·.value.isSome)
  let keyed := last.any (·.sep.isSome)
  match t.kind with
  | .comma | .explicitKey =>
    if last.isNone || keyed then some (top (entries ++ [Entry.ofStart [t]]))
    else some (top (modifyLast (·.addStart t) entries))
  | .mapValue =>
    if fresh then some (top (entries ++ [Entry.ofKey [] none [t]]))
    else if keyed then some (top (modifyLast (·.addSep [t]) entries))
    else some (top (modifyLast (·.withKey none [t]) entries))
  | .space | .comment | .newline | .anchor | .tag =>
    if fresh then some (top (entries ++ [Entry.ofStart [t]]))
    else if keyed then some (top (modifyLast (·.addSep [t]) entries))
    else some (top (modifyLast (·.addStart t) entries))
  | .reference | .scalar | .singleQuoted | .doubleQuoted =>
    let d := Draft.flowScalar t []
    if fresh then some (top (entries ++ [Entry.ofKey [] (some d) []]))
    else if keyed then some (b.push d)
    else some (top (modifyLast (·.withKey (some d) []) entries))
  | .flowMapEnd | .flowSequenceEnd =>
    some (b.setTop (.value (.flow offset indent opening entries (tail ++ [t]))))
  | _ => b.begin t

/-- Whether a closed flow collection is finished by a token because of the block map around it. -/
def leavesKey (t : Token) (indent : Nat) : Option Frame → Bool
  | some (.value (.blockMap _ below entries)) =>
    (t.kind = .mapValue && below = indent)
      || (t.kind = .newline && (entries.getLast?.all (·.sep.isNone)))
  | _ => false

def liesInFlow : Option Frame → Bool
  | some (.value (.flow _ _ _ _ _)) => true
  | _ => false

/-- Takes a token in. -/
def step : Nat → Token → Builder → Builder
  | 0, _, b => b
  | fuel + 1, t, b =>
    let again (b : Builder) : Builder := step fuel t b.pop
    let endLine (b : Builder) : Builder := if endsLine t.kind then again b else lineTail t b
    let isEnd := t.kind = .documentEnd
    match b.stack with
    | [] => if isEnd then { b with stack := [.documentEnd t []] } else stream t b
    | .documentEnd marker tail :: _ =>
      if t.kind = .documentMode then b
      else
        let b := b.setTop (.documentEnd marker (tail ++ [t]))
        if t.kind = .newline then b.pop else b
    | top :: rest =>
      if isEnd then { popAll b.stack.length b with stack := [.documentEnd t []] }
      else match top with
      | .document offset start v tail =>
        let started : Builder := b.setTop (.document offset (start ++ [t]) v tail)
        if v.isSome then endLine b
        else match t.kind with
        | .documentStart => if start.all (·.kind.isTrivia) then started else again b
        | .anchor | .tag | .space | .comment | .newline => started
        | kind => match b.begin t with
          | some b => b
          | none => b.emit (.misplaced t ("Unexpected " ++ kind.label ++ " token in YAML document"))
      | .value (.flowScalar head tail) =>
        if t.kind = .mapValue then b.keyed (.flowScalar head []) head.offset head.indent (tail ++ [t])
        else endLine b
      | .value (.blockScalar offset indent header _) =>
        match t.kind with
        | .space | .comment | .newline => b.setTop (.value (.blockScalar offset indent (header ++ [t]) []))
        | .scalar =>
          { b.setTop (.value (.blockScalar offset indent header t.source)) with atNewLine := true, indent := 0 }.pop
        | _ => again b
      | .value (.blockMap offset indent entries) =>
        if t.kind.isTrivia then
          { b with onKeyLine := b.onKeyLine && t.kind ≠ LexemeKind.newline }.setTop
            (.value (.blockMap offset indent (blockTrivia t indent entries)))
        else
          match if indent ≤ b.indent then mapToken t b offset indent entries else none with
          | some b => b
          | none => again b
      | .value (.blockSequence offset indent entries) =>
        if t.kind.isTrivia then
          b.setTop (.value (.blockSequence offset indent (blockTrivia t indent entries)))
        else match sequenceToken t b offset indent entries with
          | some b => b
          | none => again b
      | .value (.flow offset indent opening entries tail) =>
        if t.kind = .flowErrorEnd then popFlows b.stack.length b
        else if tail.isEmpty then
          match flowToken t b offset indent opening entries tail with
          | some b => b
          | none => again b
        else if leavesKey t indent rest.head? then again b
        else if t.kind = .mapValue && !liesInFlow rest.head? then
          b.keyed ((Draft.flow offset indent opening entries (tail.take 1)).settled) offset indent
            (tail.drop 1 ++ [t])
        else endLine b
      | _ => again b

/-- Takes a lexeme in and moves on behind it. -/
def next (b : Builder) (l : Lexeme) : Builder :=
  let t : Token := ⟨l.kind, b.offset, b.indent, l.source⟩
  let offset := b.offset + width l.source
  match l.kind with
  | .unknown =>
    { b.emit (.misplaced t ("Not a YAML token: " ++ String.ofList l.source)) with offset }
  | .scalar => { step (b.stack.length + 1) t { b with atNewLine := false } with offset }
  | kind =>
    let b := step (b.stack.length + 1) t b
    match kind with
    | .newline => { b with offset, atNewLine := true, indent := 0 }
    | .space =>
      { b with offset, indent := if b.atNewLine && l.source.head? = some ' ' then b.indent + l.source.length else b.indent }
    | .explicitKey | .mapValue | .sequenceItem =>
      { b with offset, indent := if b.atNewLine then b.indent + l.source.length else b.indent }
    | .documentMode | .flowErrorEnd => b
    | _ => { b with offset, atNewLine := false }

end Builder

/-- The chunks that lexemes make up. -/
def chunks (ls : List Lexeme) : List Chunk :=
  let b := ls.foldl Builder.next {}
  (b.popAll b.stack.length).chunks.reverse

end LintRepair.Yaml
