import LintRepair.Proofs.Repair.SourceSplices
import LintRepair.Proofs.Rules.Mending
import LintRepair.Proofs.Syntax.Filling
import LintRepair.Proofs.Tree.Deletion

/-!
# What a built-in repair does to a text

A built-in repair changes a text in one place: inside the flagged node, but for the removal of a
statement, which takes something of the text around along. That part of the text may be the comma and
the line end of a comment, and then the comment swallows what follows.
-/
namespace LintRepair

namespace Syntax

theorem spanFree_assemble {source : Source} {stop : Nat} {xs : List (Span × Template)}
    (hxs : ∀ x ∈ xs, x.2.SpanFree) (cursor : Nat) : (assemble source stop xs cursor).SpanFree := by
  induction xs generalizing cursor with
  | nil =>
    rw [assemble]
    split <;> trivial
  | cons x rest ih =>
    obtain ⟨hx, hrest⟩ := List.forall_mem_cons.mp hxs
    rw [assemble]
    split
    · exact ih hrest cursor
    · have hnode : (x.2.consPieces (assemble source stop rest x.1.stop)).SpanFree :=
        ⟨hx.1, hx.2, ih hrest x.1.stop⟩
      dsimp only
      split <;> exact hnode

mutual

theorem spanFree_templateOf (source : Source) (place : Place) (a : Ast) :
    (templateOf source false place a).SpanFree := by
  match a with
  | .node info children =>
    rw [templateOf]
    exact ⟨rfl, spanFree_assemble (fun x hx =>
      spanFree_go source place children 0 x (List.mem_mergeSort.mp hx)) _⟩

theorem spanFree_go (source : Source) (place : Place) (cs : List Ast) (index : Nat) :
    ∀ x ∈ templateOf.go source false place cs index, x.2.SpanFree := by
  match cs with
  | [] =>
    rw [templateOf.go]
    exact fun x hx => absurd hx List.not_mem_nil
  | c :: rest =>
    rw [templateOf.go]
    exact List.forall_mem_cons.mpr
      ⟨spanFree_templateOf source _ c, spanFree_go source place rest _⟩

end

end Syntax

namespace Rules

open Syntax

/-- The repair looks at a node of a file as it was read, and the text begins with no mark. -/
structure AsRead (text : Text) (path : String) (f : SourceFile) (c : RepairContext SourceFile) :
    Prop where
  read : ∃ template, parse text path = .ok (template, f) ∧ c.tree = .ofTemplate path text template
  parsed : c.parsed = some f
  fragments : c.fragments = fragments path
  plain : withoutMark text = text

variable {text : Text} {path : String} {f : SourceFile} {c : RepairContext SourceFile}

namespace AsRead

theorem sound (h : AsRead text path f c) : Sound c f := by
  obtain ⟨template, hparse, htree⟩ := h.read
  exact .of_parse hparse htree h.parsed

end AsRead

/-- The context of a violation in a typed file whose nodes are listed in order. -/
def listedContext (text : Text) (v : Violation) : RepairContext SourceFile :=
  let f := SourceFile.read {} (.ofText text)
  ⟨.ofTemplate "a.ts" text (templateAsListed (.ofText text) [] f.ast), some f, v.node, v,
    Syntax.fragments "a.ts"⟩

/-- The file can be read as it is listed. -/
def Listed (text : Text) : Bool :=
  let f := SourceFile.read {} (.ofText text)
  withoutMark text = text && f.errors = [] && f.ast.ordered

theorem asRead_listed {text : Text} (h : Listed text = true) (v : Violation) :
    AsRead text "a.ts" (.read {} (.ofText text)) (listedContext text v) := by
  simp only [Listed, Bool.and_eq_true, decide_eq_true_eq] at h
  obtain ⟨⟨hplain, herrors⟩, hordered⟩ := h
  exact ⟨⟨_, parse_of_ordered ofPath_typed hplain herrors hordered, rfl⟩, rfl, rfl, hplain⟩

end Rules
end LintRepair
