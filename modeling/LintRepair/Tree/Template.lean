import LintRepair.Text.Position

/-!
# Templates

A template describes a subtree that is not part of a tree yet: a kind, and a body in which literal
text alternates with further nodes. Parsed files and code snippets both become templates first.
-/
namespace LintRepair

/-- A place in a parsed syntax tree: the child indices on the way from the root, innermost first.
The enclosing nodes of a place are its tails. -/
abbrev Place := List Nat

/-- Literal text interleaved with nodes, in source order. -/
inductive Pieces where
  | nil
  | text (t : Text) (rest : Pieces)
  | node (kind : String) (span : Option Span) (origin : Option Place) (body : Pieces) (rest : Pieces)
deriving Repr, Inhabited

namespace Pieces

/-- The concatenated text. -/
def plain : Pieces → Text
  | nil => []
  | text t rest => t ++ rest.plain
  | node _ _ _ body rest => body.plain ++ rest.plain

/-- The number of nodes. -/
def count : Pieces → Nat
  | nil => 0
  | text _ rest => rest.count
  | node _ _ _ body rest => body.count + 1 + rest.count

def append : Pieces → Pieces → Pieces
  | nil, q => q
  | text t rest, q => text t (rest.append q)
  | node k s o body rest, q => node k s o body (rest.append q)

/-- The same pieces without spans and origins. -/
def detached : Pieces → Pieces
  | nil => nil
  | text t rest => text t rest.detached
  | node k _ _ body rest => node k none none body.detached rest.detached

/-- No node carries a span. -/
def SpanFree : Pieces → Prop
  | nil => True
  | text _ rest => rest.SpanFree
  | node _ span _ body rest => span = none ∧ body.SpanFree ∧ rest.SpanFree

/-- No node carries an origin. -/
def OriginFree : Pieces → Prop
  | nil => True
  | text _ rest => rest.OriginFree
  | node _ _ origin body rest => origin = none ∧ body.OriginFree ∧ rest.OriginFree

theorem plain_append (p q : Pieces) : (p.append q).plain = p.plain ++ q.plain := by
  induction p with
  | nil => rfl
  | text t rest ih => simp only [append, plain, ih, List.append_assoc]
  | node k s o body rest _ ih => simp only [append, plain, ih, List.append_assoc]

theorem plain_detached (p : Pieces) : p.detached.plain = p.plain := by
  induction p with
  | nil => rfl
  | text t rest ih => simp only [detached, plain, ih]
  | node k s o body rest hb ih => simp only [detached, plain, hb, ih]

theorem spanFree_detached (p : Pieces) : p.detached.SpanFree := by
  induction p with
  | nil => trivial
  | text t rest ih => exact ih
  | node k s o body rest hb ih => exact ⟨rfl, hb, ih⟩

theorem originFree_detached (p : Pieces) : p.detached.OriginFree := by
  induction p with
  | nil => trivial
  | text t rest ih => exact ih
  | node k s o body rest hb ih => exact ⟨rfl, hb, ih⟩

end Pieces

/-- One node with its body. -/
structure Template where
  kind : String
  span : Option Span := none
  origin : Option Place := none
  body : Pieces
deriving Repr, Inhabited

namespace Template

def plain (t : Template) : Text := t.body.plain

/-- The template in front of further pieces. -/
def consPieces (t : Template) (rest : Pieces) : Pieces := .node t.kind t.span t.origin t.body rest

def count (t : Template) : Nat := t.body.count + 1

/-- The template without spans and origins. -/
def detached (t : Template) : Template := ⟨t.kind, none, none, t.body.detached⟩

/-- A node whose body is one text. -/
def leaf (kind : String) (text : Text) : Template := ⟨kind, none, none, .text text .nil⟩

end Template
end LintRepair
