import LintRepair.Syntax.Document

/-!
# Walks through syntax trees
-/
namespace LintRepair.Syntax

/-- A node with its place. -/
structure Placed where
  place : Place
  ast : Ast
deriving Repr, Inhabited

namespace Ast

/-- The nodes below a node, each before those below it; nodes that satisfy `hides` hide theirs. -/
def descendants (hides : Ast → Bool) (place : Place) (a : Ast) : List Placed :=
  match a with
  | .node _ children => go children 0
where
  /-- The children from the given index on with the nodes below them. -/
  go : List Ast → Nat → List Placed
    | [], _ => []
    | c :: rest, index =>
      let here : Place := index :: place
      ⟨here, c⟩ :: (if hides c then [] else descendants hides here c) ++ go rest (index + 1)

end Ast

namespace SourceFile

/-- The nodes of a file below its root. -/
def nodes (f : SourceFile) : List Placed := f.ast.descendants (fun _ => false) []

def nodesOf (f : SourceFile) (k : Kind) : List Placed := f.nodes.filter (·.ast.kind = k)

/-- The nodes around a place, innermost first. -/
def around (f : SourceFile) : Place → List Placed
  | [] => []
  | _ :: outer => ((f.ast.at? outer).map (⟨outer, ·⟩)).toList ++ f.around outer

end SourceFile

/-- The child with a label and its place. -/
def Placed.child? (p : Placed) (l : Label) : Option Placed := do
  let i ← p.ast.children.findIdx? (·.info.label = l)
  let c ← p.ast.children[i]?
  return ⟨i :: p.place, c⟩

/-- The children with a label and their places. -/
def Placed.childrenOf (p : Placed) (l : Label) : List Placed :=
  (p.ast.children.zipIdx.filter fun c => c.1.info.label = l).map fun c => ⟨c.2 :: p.place, c.1⟩

end LintRepair.Syntax
