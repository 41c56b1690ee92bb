import LintRepair.Proofs.Syntax.Filling

/-!
# Templates lose no text

The template of a node spells what the node takes of the text, whatever its children look like. Children may
stand in any order, take nothing, overlap one another or reach out of their parent: a child that does not
fit is left out, and its text is literal. What is kept is laid out so that the spans of the children of each
node come one after the other, inside the span of the node. Only files inside of files are ruled out, since
a file takes the trivia before its first node.
-/
namespace LintRepair

open Syntax

namespace Pieces

/-- The texts between the nodes. -/
def literals : Pieces → List Text
  | nil => []
  | text t rest => t :: rest.literals
  | node _ _ _ _ rest => rest.literals

/-- The nodes that stand directly among the pieces. -/
def tops : Pieces → List Template
  | nil => []
  | text _ rest => rest.tops
  | node kind span origin body rest => ⟨kind, span, origin, body⟩ :: rest.tops

/-- All nodes of the pieces, each before those inside it. -/
def nodes : Pieces → List Template
  | nil => []
  | text _ rest => rest.nodes
  | node kind span origin body rest => ⟨kind, span, origin, body⟩ :: (body.nodes ++ rest.nodes)

/-- No literal text is empty, on any level. -/
def Written : Pieces → Prop
  | nil => True
  | text t rest => t ≠ [] ∧ rest.Written
  | node _ _ _ body rest => body.Written ∧ rest.Written

theorem Written.nil_not_mem_literals {p : Pieces} (hp : p.Written) : [] ∉ p.literals := by
  induction p with
  | nil => exact List.not_mem_nil
  | text t rest ih =>
    intro hmem
    rcases List.mem_cons.mp hmem with h | h
    · exact hp.1 h.symm
    · exact ih hp.2 h
  | node kind span origin body rest _ ihRest => exact ihRest hp.2

theorem Written.body {p : Pieces} (hp : p.Written) : ∀ u ∈ p.nodes, u.body.Written := by
  induction p with
  | nil => exact fun u hu => absurd hu List.not_mem_nil
  | text t rest ih => exact ih hp.2
  | node kind span origin body rest ihBody ihRest =>
    refine List.forall_mem_cons.mpr ⟨hp.1, fun u hu => ?_⟩
    rcases List.mem_append.mp hu with hu | hu
    · exact ihBody hp.1 u hu
    · exact ihRest hp.2 u hu

end Pieces

namespace Template

variable {source : Text} {a b : Nat}

/-- The node and all nodes inside, each before those inside it. -/
def nodes (t : Template) : List Template := t :: t.body.nodes

/-- The node spells its span, and the spans of its children are not empty, lie inside and come one after
the other. -/
structure Spans (source : Text) (u : Template) (span : Span) (inner : List Span) : Prop where
  span_eq : u.span = some span
  inner_eq : u.body.tops.map (·.span) = inner.map some
  plain_eq : u.plain = source.slice span.start span.stop
  inside : ∀ c ∈ inner, span.start ≤ c.start ∧ c.start < c.stop ∧ c.stop ≤ span.stop
  ordered : inner.Pairwise fun c d => c.start < d.start ∧ c.stop ≤ d.start

end Template

/-! ## Pieces that fill a stretch of the text -/

namespace Pieces.Tiles

variable {source : Text} {p : Pieces} {a b : Nat}

theorem plain_eq (hp : p.Tiles source a b) : a ≤ b ∧ p.plain = source.slice a b := by
  induction p generalizing a b with
  | nil =>
    obtain rfl : a = b := hp
    exact ⟨Nat.le_refl a, (Text.slice_eq_nil (Nat.le_refl a)).symm⟩
  | text t rest ih =>
    obtain ⟨ht, hrest⟩ := hp
    obtain ⟨hle, hplain⟩ := ih hrest
    refine ⟨by omega, ?_⟩
    calc (Pieces.text t rest).plain = t ++ rest.plain := rfl
      _ = source.slice a (a + t.length) ++ source.slice (a + t.length) b := by rw [ht, hplain]
      _ = source.slice a b := Text.slice_append_slice source (Nat.le_add_right a _) hle
  | node kind span origin body rest ihBody ihRest =>
    obtain ⟨stop, -, hfull, hbody, hrest⟩ := hp
    obtain ⟨-, hinner⟩ := ihBody hbody
    obtain ⟨hle, hafter⟩ := ihRest hrest
    refine ⟨by omega, ?_⟩
    calc (Pieces.node kind span origin body rest).plain = body.plain ++ rest.plain := rfl
      _ = source.slice a stop ++ source.slice stop b := by rw [hinner, hafter]
      _ = source.slice a b := Text.slice_append_slice source (Nat.le_of_lt hfull) hle

theorem exists_inner (hp : p.Tiles source a b) : ∃ inner : List Span,
    p.tops.map (·.span) = inner.map some ∧
    (∀ c ∈ inner, a ≤ c.start ∧ c.start < c.stop ∧ c.stop ≤ b) ∧
    inner.Pairwise fun c d => c.start < d.start ∧ c.stop ≤ d.start := by
  induction p generalizing a with
  | nil => exact ⟨[], rfl, fun c hc => absurd hc List.not_mem_nil, .nil⟩
  | text t rest ih =>
    obtain ⟨inner, hspans, hinside, hordered⟩ := ih hp.2
    refine ⟨inner, hspans, fun c hc => ?_, hordered⟩
    obtain ⟨hlo, hfull, hhi⟩ := hinside c hc
    exact ⟨by omega, hfull, hhi⟩
  | node kind span origin body rest _ ihRest =>
    obtain ⟨stop, rfl, hfull, -, hrest⟩ := hp
    obtain ⟨inner, hspans, hinside, hordered⟩ := ihRest hrest
    refine ⟨⟨a, stop⟩ :: inner, by rw [tops, List.map_cons, hspans, List.map_cons], ?_, ?_⟩
    · refine List.forall_mem_cons.mpr ⟨⟨Nat.le_refl a, hfull, hrest.plain_eq.1⟩, fun c hc => ?_⟩
      obtain ⟨hlo, hc, hhi⟩ := hinside c hc
      exact ⟨by omega, hc, hhi⟩
    · refine List.pairwise_cons.mpr ⟨fun c hc => ?_, hordered⟩
      obtain ⟨hlo, -, -⟩ := hinside c hc
      exact ⟨by change a < c.start; omega, hlo⟩

theorem exists_spans {u : Template} (hspan : u.span = some ⟨a, b⟩) (hbody : u.body.Tiles source a b) :
    ∃ span inner, u.Spans source span inner := by
  obtain ⟨inner, hspans, hinside, hordered⟩ := hbody.exists_inner
  exact ⟨⟨a, b⟩, inner, hspan, hspans, hbody.plain_eq.2, hinside, hordered⟩

theorem spans_of_mem_nodes (hp : p.Tiles source a b) :
    ∀ u ∈ p.nodes, ∃ span inner, u.Spans source span inner := by
  induction p generalizing a b with
  | nil => exact fun u hu => absurd hu List.not_mem_nil
  | text t rest ih => exact ih hp.2
  | node kind span origin body rest ihBody ihRest =>
    obtain ⟨stop, hspan, -, hbody, hrest⟩ := hp
    refine List.forall_mem_cons.mpr ⟨exists_spans hspan hbody, fun u hu => ?_⟩
    rcases List.mem_append.mp hu with hu | hu
    · exact ihBody hbody u hu
    · exact ihRest hrest u hu

end Pieces.Tiles

namespace Syntax

variable {source : Text}

/-! ## Literal texts -/

theorem slice_ne_nil {start stop : Nat} (hlt : start < stop) (hstop : stop ≤ source.length) :
    source.slice start stop ≠ [] := by
  intro hnil
  have hlength := Text.length_slice (Nat.le_of_lt hlt) hstop
  rw [hnil, List.length_nil] at hlength
  omega

theorem written_assemble {xs : List (Span × Template)} {stop : Nat} (hstop : stop ≤ source.length)
    (hxs : ∀ x ∈ xs, x.1.stop ≤ source.length → x.2.body.Written) (cursor : Nat) :
    (assemble (.ofText source) stop xs cursor).Written := by
  induction xs generalizing cursor with
  | nil =>
    rw [assemble, Source.slice_ofText]
    split
    · next hlt => exact ⟨slice_ne_nil hlt hstop, trivial⟩
    · trivial
  | cons x rest ih =>
    obtain ⟨hx, hrest⟩ := List.forall_mem_cons.mp hxs
    obtain ⟨span, template⟩ := x
    rw [assemble, Source.slice_ofText]
    split
    · exact ih hrest cursor
    · next hfits =>
      simp only [Bool.or_eq_true, decide_eq_true_eq, not_or] at hfits
      have hnode : (template.consPieces (assemble (.ofText source) stop rest span.stop)).Written :=
        ⟨hx (by lia), ih hrest span.stop⟩
      dsimp only
      split
      · next hlt => exact ⟨slice_ne_nil hlt (by lia), hnode⟩
      · exact hnode

mutual

theorem written_templateOf (source : Text) (rooted : Bool) (place : Place) (a : Ast)
    (hstop : a.stop ≤ source.length) :
    (templateOf (.ofText source) rooted place a).body.Written := by
  match a with
  | .node info children =>
    rw [templateOf]
    refine written_assemble hstop (fun x hx => ?_) _
    exact written_go source rooted place children 0 x (List.mem_mergeSort.mp hx)

theorem written_go (source : Text) (rooted : Bool) (place : Place) (cs : List Ast) (index : Nat) :
    ∀ x ∈ templateOf.go (.ofText source) rooted place cs index,
      x.1.stop ≤ source.length → x.2.body.Written := by
  match cs with
  | [] =>
    rw [templateOf.go]
    exact fun x hx => absurd hx List.not_mem_nil
  | c :: rest =>
    rw [templateOf.go]
    refine List.forall_mem_cons.mpr ⟨fun hstop => ?_, written_go source rooted place rest _⟩
    exact written_templateOf source rooted (index :: place) c hstop

end

/-! ## Templates without spans -/

theorem assemble_detached {text : Source} {stop : Nat} (xs : List (Span × Template)) (cursor : Nat) :
    (assemble text stop xs cursor).detached =
      assemble text stop (xs.map (Prod.map id Template.detached)) cursor := by
  induction xs generalizing cursor with
  | nil =>
    rw [List.map_nil, assemble]
    split
    · rfl
    · rfl
  | cons x rest ih =>
    have hnode : (x.2.consPieces (assemble text stop rest x.1.stop)).detached =
        x.2.detached.consPieces
          (assemble text stop (rest.map (Prod.map id Template.detached)) x.1.stop) :=
      congrArg (Pieces.node x.2.kind none none x.2.body.detached) (ih x.1.stop)
    rw [List.map_cons, assemble, assemble]
    dsimp only [Prod.map, id]
    split
    · exact ih cursor
    · split
      · exact congrArg (Pieces.text _) hnode
      · exact hnode

mutual

theorem templateOf_detached (text : Source) (place : Place) (a : Ast) :
    (templateOf text true place a).detached = templateOf text false place a := by
  match a with
  | .node info children =>
    have hsort := List.map_mergeSort (r := fun x y : Span × Template => decide (x.1.start ≤ y.1.start))
      (s := fun x y => decide (x.1.start ≤ y.1.start)) (f := Prod.map id Template.detached)
      (l := templateOf.go text true place children 0) fun _ _ _ _ => rfl
    rw [go_detached text place children 0] at hsort
    rw [templateOf, templateOf, ← hsort, ← assemble_detached]
    rfl

theorem go_detached (text : Source) (place : Place) (cs : List Ast) (index : Nat) :
    (templateOf.go text true place cs index).map (Prod.map id Template.detached) =
      templateOf.go text false place cs index := by
  match cs with
  | [] => rw [templateOf.go, templateOf.go, List.map_nil]
  | c :: rest =>
    rw [templateOf.go, templateOf.go, List.map_cons, go_detached text place rest,
      ← templateOf_detached text (index :: place) c]
    rfl

end

/-- The template of a node spells exactly what the node takes of the text, and no literal text in it is
empty. If spans are kept, that of the whole template is what the node takes, each node inside spells its
own, and the spans of the children of a node lie inside its own and are apart, in the order of the text. -/
theorem templateOf_lossless (source : Text) (rooted : Bool) (place : Place) (a : Ast)
    (hle : a.extent.start ≤ a.extent.stop) (hstop : a.extent.stop ≤ source.length)
    (hinner : Ast.filelessAll a.children = true) :
    (templateOf (.ofText source) rooted place a).plain =
      source.slice a.extent.start a.extent.stop ∧
    (∀ u ∈ (templateOf (.ofText source) rooted place a).nodes, [] ∉ u.body.literals) ∧
    (rooted = true → (templateOf (.ofText source) rooted place a).span = some a.extent ∧
      ∀ u ∈ (templateOf (.ofText source) rooted place a).nodes,
        ∃ span inner, u.Spans source span inner) := by
  obtain ⟨hspan, hbody⟩ := tiles_templateOf source place a hinner hle hstop
  have hwritten := written_templateOf source rooted place a hstop
  refine ⟨?_, ?_, ?_⟩
  · have hplain := hbody.plain_eq.2
    cases rooted with
    | true => exact hplain
    | false =>
      -- Pieces without spans tile nothing, so the text is read off the template that has them.
      rw [← templateOf_detached]
      exact (Pieces.plain_detached _).trans hplain
  · refine List.forall_mem_cons.mpr ⟨hwritten.nil_not_mem_literals, fun u hu => ?_⟩
    exact (hwritten.body u hu).nil_not_mem_literals
  · rintro rfl
    have hroot := Pieces.Tiles.exists_spans hspan hbody
    exact ⟨hspan, List.forall_mem_cons.mpr ⟨hroot, hbody.spans_of_mem_nodes⟩⟩

/-- A block whose children are listed out of order: a name that overlaps the second one, an empty one, a
list that reaches out of the block, and a name around one that reaches out of it. -/
def crooked : Ast :=
  .node { kind := .block, start := 1, stop := 9 } [
    .node { kind := .identifier, start := 5, stop := 7 } [],
    .node { kind := .identifier, start := 4, stop := 4 } [],
    .node { kind := .arrayLiteralExpression, start := 8, stop := 10 } [],
    .node { kind := .parenthesizedExpression, start := 2, stop := 6 } [
      .node { kind := .identifier, start := 3, stop := 7 } [],
      .node { kind := .identifier, start := 3, stop := 4 } []]]

theorem templateOf_lossless_crooked :
    crooked.extent.start ≤ crooked.extent.stop ∧
    crooked.extent.stop ≤ (Text.ofString "0123456789").length ∧
    Ast.filelessAll crooked.children = true ∧
    (templateOf (.ofText (.ofString "0123456789")) false [] crooked).plain = .ofString "12345678" ∧
    ∀ u ∈ (templateOf (.ofText (.ofString "0123456789")) true [] crooked).nodes,
      ∃ span inner, u.Spans (.ofString "0123456789") span inner := by
  have hle : crooked.extent.start ≤ crooked.extent.stop := by decide
  have hstop : crooked.extent.stop ≤ (Text.ofString "0123456789").length := by decide
  have hinner : Ast.filelessAll crooked.children = true := by decide
  refine ⟨hle, hstop, hinner, ?_, ?_⟩
  · exact (templateOf_lossless _ false [] crooked hle hstop hinner).1
  · exact ((templateOf_lossless _ true [] crooked hle hstop hinner).2.2 rfl).2

end Syntax
end LintRepair
