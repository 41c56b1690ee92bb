import LintRepair.Proofs.Syntax.Exactness
import LintRepair.Proofs.Tree.Tiling

/-!
# The tree of a source file fills its text

The nodes of a file that could be read and the text between them lie side by side and fill the text, or
all but its last unit if it begins with a mark. A node that takes nothing or does not fit between its
neighbours has been left out, and what it would have taken is text. No file lies inside of the file: such a
one would take the trivia before its first node, wherever it stands.
-/
namespace LintRepair

open Syntax

namespace Syntax

variable {source : Text}

theorem tiles_text {a b : Nat} {rest : Pieces} {stop : Nat} (hab : a ≤ b) (hb : b ≤ source.length)
    (hrest : rest.Tiles source b stop) : (Pieces.text (source.slice a b) rest).Tiles source a stop := by
  rw [Pieces.Tiles, Text.length_slice hab hb]
  exact ⟨rfl, hrest⟩

theorem tiles_assemble {xs : List (Span × Template)} {stop : Nat} (hstop : stop ≤ source.length)
    (hxs : ∀ x ∈ xs, x.1.start < x.1.stop → x.1.stop ≤ source.length →
      x.2.span = some x.1 ∧ x.2.body.Tiles source x.1.start x.1.stop)
    {cursor : Nat} (hle : cursor ≤ stop) :
    (assemble (.ofText source) stop xs cursor).Tiles source cursor stop := by
  induction xs generalizing cursor with
  | nil =>
    rw [assemble, Source.slice_ofText]
    split
    · exact tiles_text hle hstop rfl
    · exact (by lia : cursor = stop)
  | cons x rest ih =>
    obtain ⟨hx, hrest⟩ := List.forall_mem_cons.mp hxs
    obtain ⟨span, template⟩ := x
    rw [assemble, Source.slice_ofText]
    split
    · exact ih hrest hle
    · next hfits =>
      simp only [Bool.or_eq_true, decide_eq_true_eq, not_or] at hfits
      obtain ⟨hspan, hbody⟩ := hx (by lia) (by lia)
      have hnode : (template.consPieces (assemble (.ofText source) stop rest span.stop)).Tiles source
          span.start stop :=
        ⟨span.stop, hspan, by lia, hbody, ih hrest (by lia)⟩
      dsimp only
      split
      · exact tiles_text (by lia) (by lia) hnode
      · rw [show cursor = span.start by lia]
        exact hnode

theorem Ast.extent_of_fileless {a : Ast} (ha : a.fileless = true) : a.extent = ⟨a.start, a.stop⟩ := by
  match a with
  | .node info children =>
    rw [Ast.fileless, Bool.and_eq_true, decide_eq_true_eq] at ha
    exact congrArg (Span.mk · info.stop) (if_neg ha.1)

mutual

/-- The template of a node spans what the node takes, and its body fills it. -/
theorem tiles_templateOf (source : Text) (place : Place) (a : Ast)
    (hinner : Ast.filelessAll a.children = true) (hle : a.extent.start ≤ a.extent.stop)
    (hstop : a.extent.stop ≤ source.length) :
    (templateOf (.ofText source) true place a).span = some a.extent ∧
      (templateOf (.ofText source) true place a).body.Tiles source a.extent.start a.extent.stop := by
  match a with
  | .node info children =>
    rw [templateOf]
    refine ⟨rfl, tiles_assemble hstop (fun x hx => ?_) hle⟩
    exact tiles_go source place children 0 hinner x (List.mem_mergeSort.mp hx)

theorem tiles_go (source : Text) (place : Place) (cs : List Ast) (index : Nat)
    (hcs : Ast.filelessAll cs = true) : ∀ x ∈ templateOf.go (.ofText source) true place cs index,
      x.1.start < x.1.stop → x.1.stop ≤ source.length →
        x.2.span = some x.1 ∧ x.2.body.Tiles source x.1.start x.1.stop := by
  match cs with
  | [] =>
    rw [templateOf.go]
    exact fun x hx => absurd hx List.not_mem_nil
  | c :: rest =>
    rw [Ast.filelessAll, Bool.and_eq_true] at hcs
    rw [templateOf.go]
    refine List.forall_mem_cons.mpr ⟨fun hlt hstop => ?_, tiles_go source place rest _ hcs.2⟩
    have hextent := Ast.extent_of_fileless hcs.1
    have hc := tiles_templateOf source (index :: place) c (Ast.filelessAll_of_fileless hcs.1)
    rw [hextent] at hc
    exact hc (Nat.le_of_lt hlt) hstop

end

section Parsing

variable {text : Text} {path : String} {template : Template} {f : SourceFile}
  (h : parse text path = .ok (template, f)) (hinner : Ast.filelessAll f.ast.children = true)
include h hinner

/-- The template of a file fills the text from its start on, except for as many units as its mark has. -/
theorem tiles_of_parse : template.span = some ⟨0, (withoutMark text).length⟩ ∧
    template.body.Tiles text 0 (withoutMark text).length := by
  obtain ⟨-, hextent⟩ := SourceFile.extent_ast (.ofPath path) (.ofText (withoutMark text))
  rw [← source_of_parse h, Source.size, Source.ofText, List.size_toArray] at hextent
  have htemplate : template = templateOf (.ofText text) true [] f.ast := by
    unfold parse at h
    dsimp only at h
    split at h
    · cases h
      rfl
    · cases h
  have hlength : (withoutMark text).length ≤ text.length := by
    unfold withoutMark
    split
    · exact Nat.le_succ _
    · exact Nat.le_refl _
  have htiles := tiles_templateOf text [] f.ast hinner
  rw [← htemplate, hextent] at htiles
  exact htiles (Nat.zero_le _) hlength

theorem arranged_of_parse : (Tree.ofTemplate path text template).Arranged := by
  obtain ⟨hspan, hbody⟩ := tiles_of_parse h hinner
  exact Tree.arranged_ofTemplate path hspan hbody

end Parsing

end Syntax
end LintRepair
