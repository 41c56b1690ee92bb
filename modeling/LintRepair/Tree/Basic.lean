import LintRepair.Fault
import LintRepair.Text.Blank
import LintRepair.Tree.Template

/-!
# Syntax trees with stable handles

A tree keeps its nodes in numbered slots. A handle is a slot number: slots are filled in order and
never reused, so a handle names one node for good, and an emptied slot marks a handle that has become
invalid. Each node lists its parts, literal text and child handles in source order.
-/
namespace LintRepair

/-- A reference to a node; one that names no live node is answered with a fault. -/
abbrev Handle := Int

inductive Part where
  | text (t : Text)
  | node (h : Handle)
deriving DecidableEq, Repr, Inhabited

namespace Part

def text? : Part → Option Text
  | text t => some t
  | node _ => none

def handle? : Part → Option Handle
  | text _ => none
  | node h => some h

def isNode : Part → Bool
  | text _ => false
  | node _ => true

/-- Drops empty texts and joins neighbouring ones. -/
def normalize : List Part → List Part
  | [] => []
  | node h :: rest => node h :: normalize rest
  | text t :: rest =>
    if t.isEmpty then normalize rest
    else match normalize rest with
      | text u :: more => text (t ++ u) :: more
      | more => text t :: more

/-- The handles among the parts. -/
def handles (parts : List Part) : List Handle := parts.filterMap handle?

/-- The parts before and after a node. -/
def around (h : Handle) : List Part → Option (List Part × List Part)
  | [] => none
  | p :: rest =>
    if p = node h then some ([], rest)
    else (around h rest).map fun (before, after) => (p :: before, after)

theorem handles_cons_text (t : Text) (rest : List Part) : handles (text t :: rest) = handles rest := rfl

theorem handles_cons_node (h : Handle) (rest : List Part) :
    handles (node h :: rest) = h :: handles rest := rfl

theorem handles_normalize (parts : List Part) : handles (normalize parts) = handles parts := by
  fun_induction normalize parts with
  | case1 => rfl
  | case2 h rest ih => rw [handles_cons_node, handles_cons_node, ih]
  | case3 t rest _ ih => rw [handles_cons_text, ih]
  | case4 t rest _ u more hm ih => rw [handles_cons_text, handles_cons_text, ← ih, hm, handles_cons_text]
  | case5 t rest _ _ ih => rw [handles_cons_text, handles_cons_text, ih]

theorem eq_of_around {h : Handle} {parts before after : List Part}
    (e : around h parts = some (before, after)) : parts = before ++ node h :: after := by
  induction parts generalizing before with
  | nil => simp [around] at e
  | cons p rest ih =>
    rw [around] at e
    split at e
    · next hp => simp_all
    · obtain ⟨⟨b, a⟩, hb, he⟩ := Option.map_eq_some_iff.1 e
      simp only [Prod.mk.injEq] at he
      obtain ⟨rfl, rfl⟩ := he
      simp [ih hb]

end Part

/-- A node of a tree. A node that was parsed has a span of the source and an origin in the syntax
tree; `dirty` says that the node or something below it has changed since. -/
structure Node where
  kind : String
  parent : Option Handle
  parts : List Part
  span : Option Span
  origin : Option Place
  dirty : Bool := false
deriving DecidableEq, Repr, Inhabited

structure Tree where
  filePath : String
  source : Text
  slots : Array (Option Node)
deriving Repr, Inhabited

namespace Pieces

/-- The parts and the nodes that the pieces become below `parent` when the next free slot is `next`:
a node takes its slot before the nodes of its body do. -/
def arena (parent : Handle) (next : Nat) : Pieces → List Part × List Node
  | nil => ([], [])
  | text t rest =>
    let (parts, nodes) := rest.arena parent next
    (.text t :: parts, nodes)
  | node kind span origin body rest =>
    let (inner, below) := body.arena next (next + 1)
    let (parts, later) := rest.arena parent (next + 1 + below.length)
    (.node next :: parts,
      ⟨kind, some parent, Part.normalize inner, span, origin, false⟩ :: below ++ later)

theorem length_arena (p : Pieces) (parent : Handle) (next : Nat) :
    (p.arena parent next).2.length = p.count := by
  induction p generalizing parent next with
  | nil => rfl
  | text t rest ih => simpa [arena, count] using ih parent next
  | node k s o body rest hb ih => simp [arena, count, hb, ih]; omega

end Pieces

namespace Template

/-- The nodes that a template becomes from slot `next` on. -/
def arena (t : Template) (parent : Option Handle) (next : Nat) : List Node :=
  let (inner, below) := t.body.arena next (next + 1)
  ⟨t.kind, parent, Part.normalize inner, t.span, t.origin, false⟩ :: below

theorem length_arena (t : Template) (parent : Option Handle) (next : Nat) :
    (t.arena parent next).length = t.count := by
  simp [arena, count, Pieces.length_arena]

end Template

namespace Tree

/-- The handle of every tree's root. -/
def root : Handle := 0

/-- The tree that holds exactly a template. -/
def ofTemplate (filePath : String) (source : Text) (template : Template) : Tree :=
  ⟨filePath, source, ((template.arena none 0).map some).toArray⟩

/-- The live node of a handle. -/
def node? (t : Tree) (h : Handle) : Option Node :=
  if h < 0 then none else (t.slots[h.toNat]?).join

/-- The node of a handle, or the fault of using a handle without one. -/
def get (t : Tree) (h : Handle) : Except Fault Node :=
  match t.node? h with
  | some node => .ok node
  | none => .error (.invalidHandle h)

/-- The number of live nodes. -/
def size (t : Tree) : Nat := t.slots.toList.countP Option.isSome

def isValid (t : Tree) (h : Handle) : Bool := (t.node? h).isSome

/-- The handle has named a node that is gone. -/
def isInvalidated (t : Tree) (h : Handle) : Bool :=
  0 ≤ h && h.toNat < t.slots.size && !t.isValid h

def kind (t : Tree) (h : Handle) : Except Fault String := return (← t.get h).kind

def parent (t : Tree) (h : Handle) : Except Fault (Option Handle) := return (← t.get h).parent

def children (t : Tree) (h : Handle) : Except Fault (List Handle) :=
  return Part.handles (← t.get h).parts

def isDirty (t : Tree) (h : Handle) : Except Fault Bool := return (← t.get h).dirty

/-- The place in the syntax tree that a node was parsed from. -/
def origin (t : Tree) (h : Handle) : Except Fault (Option Place) := return (← t.get h).origin

/-- At most `n` enclosing nodes, innermost first. -/
def chain (t : Tree) : Nat → Option Handle → List Handle
  | 0, _ => []
  | _ + 1, none => []
  | n + 1, some h => h :: t.chain n ((t.node? h).bind (·.parent))

/-- The enclosing nodes of a node, innermost first. -/
def ancestors (t : Tree) (h : Handle) : List Handle :=
  t.chain t.slots.size ((t.node? h).bind (·.parent))

def depth (t : Tree) (h : Handle) : Except Fault Nat := do
  let _ ← t.get h
  return (t.ancestors h).length

def isAncestor (t : Tree) (outer inner : Handle) : Except Fault Bool := do
  let _ ← t.get outer
  let _ ← t.get inner
  return (t.ancestors inner).contains outer

/-- The span of the nearest enclosing node that was parsed, else the whole source. -/
def spanOf (t : Tree) (h : Handle) : Span :=
  ((h :: t.ancestors h).findSome? fun a => (t.node? a).bind (·.span)).getD ⟨0, t.source.length⟩

def location (t : Tree) (h : Handle) : Except Fault Location := do
  let _ ← t.get h
  return t.source.location (t.spanOf h)

/-- The text of a node, at most `n` levels deep: an unchanged parsed node is cut from the source. -/
def textAt (t : Tree) : Nat → Handle → Text
  | 0, _ => []
  | n + 1, h =>
    match t.node? h with
    | none => []
    | some node =>
      match node.dirty, node.span with
      | false, some span => t.source.slice span.start span.stop
      | _, _ => node.parts.flatMap fun part =>
        match part with
        | .text s => s
        | .node c => t.textAt n c

def textOf (t : Tree) (h : Handle) : Except Fault Text := do
  let _ ← t.get h
  return t.textAt t.slots.size h

/-- The text of the whole tree. -/
def render (t : Tree) : Text := t.textAt t.slots.size root

/-- One node met on a walk. -/
structure Visit where
  handle : Handle
  kind : String
  depth : Nat
deriving DecidableEq, Repr, Inhabited

/-- The nodes from `h` on, each before its children; nodes of a kind in `skipped` hide theirs. -/
def walk (t : Tree) (skipped : String → Bool) : Nat → Nat → Handle → List Visit
  | 0, _, _ => []
  | n + 1, depth, h =>
    match t.node? h with
    | none => []
    | some node =>
      ⟨h, node.kind, depth⟩ ::
        if skipped node.kind then []
        else (Part.handles node.parts).flatMap fun c => t.walk skipped n (depth + 1) c

def visit (t : Tree) (skipped : String → Bool) (start : Handle) : Except Fault (List Visit) :=
  return t.walk skipped t.slots.size (← t.depth start) start

/-- The handles of a subtree, each before those below it. -/
def subtree (t : Tree) (h : Handle) : List Handle :=
  (t.walk (fun _ => false) t.slots.size 0 h).map (·.handle)

/-- The live node that was parsed from exactly this place. -/
def handleAt? (t : Tree) (place : Place) : Option Handle :=
  (t.slots.toList.findIdx? fun slot => match slot with
    | some node => node.origin = some place
    | none => false).map Int.ofNat

/-- The live node of the nearest enclosing place that has one. -/
def handleOf? (t : Tree) : Place → Option Handle
  | [] => t.handleAt? []
  | i :: outer => (t.handleAt? (i :: outer)).or (t.handleOf? outer)

end Tree
end LintRepair
