import LintRepair.Syntax.Kind
import LintRepair.Tree.Template

/-!
# Syntax trees

A node has a kind and labelled children, in the order in which the grammar lists them. Its extent is
kept both with the trivia before it and without.
-/
namespace LintRepair.Syntax

/-- What a child is to its parent. -/
inductive Label where
  | modifiers | name | typeParameters | parameters | type | body | initializer | expression | left
  | right | operator | condition | question | whenTrue | colon | whenFalse | exclamation | rest
  | asterisk | arrow | equals | statement | otherwise | declarations | increment | await | target
  | clauses | block | catchClause | finallyBlock | heritage | members | elements | arguments
  | typeArguments | head | spans | literal | tag | template | chain | constraint | default
  | propertyName | readonly | nameType | asserts | statements | attributes | bindings | module
  | opening | children | closing | space | endOfFile | qualifier
deriving DecidableEq, Repr, Inhabited

/-- The extent of a list of children, which may be empty. -/
structure ListExtent where
  label : Label
  /-- The number of children before the list. -/
  index : Nat
  start : Nat
  stop : Nat
  trailingComma : Bool := false
  /-- The brackets of the list are missing. -/
  missing : Bool := false
deriving DecidableEq, Repr, Inhabited

/-- What is known about a node besides its children. -/
structure NodeInfo where
  kind : Kind
  label : Label := .statement
  /-- Where the trivia before the node starts. -/
  fullStart : Nat := 0
  start : Nat := 0
  stop : Nat := 0
  /-- The operator or keyword that tells forms of one kind apart. -/
  token : Kind := .unknown
  /-- What a name or a literal says. -/
  text : Text := []
  /-- A line ends behind the opening bracket, or in the text of a markup node. -/
  multiLine : Bool := false
  /-- The node is only about types. -/
  typeOnly : Bool := false
  /-- The node belongs to a chain that stops at a missing value. -/
  optional : Bool := false
  lists : List ListExtent := []
deriving Repr, Inhabited

inductive Ast where
  | node (info : NodeInfo) (children : List Ast)
deriving Repr, Inhabited

namespace Ast

def info : Ast → NodeInfo
  | node i _ => i

def children : Ast → List Ast
  | node _ cs => cs

def kind (a : Ast) : Kind := a.info.kind

def fullStart (a : Ast) : Nat := a.info.fullStart

def start (a : Ast) : Nat := a.info.start

def stop (a : Ast) : Nat := a.info.stop

def text (a : Ast) : Text := a.info.text

def mapInfo (f : NodeInfo → NodeInfo) : Ast → Ast
  | node i cs => node (f i) cs

/-- The node as a child with the given label. -/
def as (a : Ast) (label : Label) : Ast := a.mapInfo fun i => { i with label }

/-- A node of no width, which stands for one that is not there. -/
def isMissing (a : Ast) : Bool := a.fullStart = a.stop && a.kind ≠ .endOfFileToken

/-- The first child with a label. -/
def child? (a : Ast) (label : Label) : Option Ast := a.children.find? (·.info.label = label)

/-- The children with a label. -/
def childrenOf (a : Ast) (label : Label) : List Ast := a.children.filter (·.info.label = label)

def has (a : Ast) (label : Label) : Bool := (a.child? label).isSome

def list? (a : Ast) (label : Label) : Option ListExtent := a.info.lists.find? (·.label = label)

/-- The modifier of a kind among the modifiers. -/
def hasModifier (a : Ast) (k : Kind) : Bool := (a.childrenOf .modifiers).any (·.kind = k)

/-- Indices lead from the node down, outermost first. -/
def descend? (a : Ast) : List Nat → Option Ast
  | [] => some a
  | i :: rest =>
    match a.children[i]? with
    | none => none
    | some c => descend? c rest

/-- The node at a place. -/
def at? (a : Ast) (place : Place) : Option Ast := a.descend? place.reverse

mutual

/-- Neither the node nor any node inside is a file. -/
def fileless : Ast → Bool
  | .node info children => info.kind ≠ .sourceFile && filelessAll children

def filelessAll : List Ast → Bool
  | [] => true
  | a :: rest => a.fileless && filelessAll rest

end

theorem filelessAll_iff {as : List Ast} : filelessAll as = true ↔ ∀ a ∈ as, a.fileless = true := by
  induction as with
  | nil => simp [filelessAll]
  | cons a rest ih => simp [filelessAll, ih]

theorem fileless_iff {a : Ast} :
    a.fileless = true ↔ a.kind ≠ .sourceFile ∧ filelessAll a.children = true := by
  cases a
  simp [fileless, kind, info, children]

theorem filelessAll_of_fileless {a : Ast} (ha : a.fileless = true) : filelessAll a.children = true :=
  (fileless_iff.mp ha).2

theorem fileless_child? {a c : Ast} {label : Label} (ha : filelessAll a.children = true)
    (hc : a.child? label = some c) : c.fileless = true :=
  filelessAll_iff.mp ha c (List.mem_of_find?_eq_some hc)

theorem fileless_childrenOf {a c : Ast} {label : Label} (ha : filelessAll a.children = true)
    (hc : c ∈ a.childrenOf label) : c.fileless = true :=
  filelessAll_iff.mp ha c (List.mem_filter.mp hc).1

theorem fileless_as (a : Ast) (label : Label) : (a.as label).fileless = a.fileless := by
  cases a
  rfl

end Ast
end LintRepair.Syntax
