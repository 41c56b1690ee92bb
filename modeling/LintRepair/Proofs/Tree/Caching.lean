import LintRepair.Proofs.Tree.Atomicity
import LintRepair.Proofs.Tree.Tiling

/-!
# Spans as cached texts

An unchanged parsed node is cut from the source and not put together from its parts. That gives the same
text as long as the span of every unmarked node spells its parts (`Faithful`). A tree whose spans all do so
is faithful, and calls that bring in no spans keep it so, since they mark every node that they change
something inside of. So whatever is called on such a tree and on copies of it, each of them answers with
the texts of the parts (`textOf_eq_plain`).
-/
namespace LintRepair

/-- The subtree that the call brings in carries no spans. -/
def Edit.SpanFree (e : Edit) : Prop := ∀ template, e.subtree? = some template → template.SpanFree

theorem Edit.spanFree_delete (h : Handle) : (delete h).SpanFree := by
  intro template he
  cases he

namespace Tree

variable {t : Tree} {e : Edit} {s : Seat} {h k : Handle} {n : Node} {span : Span}

/-- The text of a node put together from its parts, at most `n` levels deep. -/
def plainAt (t : Tree) : Nat → Handle → Text
  | 0, _ => []
  | n + 1, h =>
    match t.node? h with
    | none => []
    | some node => Part.flat (t.plainAt n) node.parts

/-- The text of a node put together from its parts all the way down, without a look at the spans. -/
def plain (t : Tree) (h : Handle) : Text := t.plainAt t.slots.size h

/-- Every span spells the parts of its node. -/
def SpanConsistent (t : Tree) : Prop := ∀ h n span, t.node? h = some n → n.span = some span →
  t.source.slice span.start span.stop = Part.flat t.spelling n.parts

/-- The span of every unmarked node spells its parts. -/
structure Faithful (t : Tree) : Prop where
  wellFormed : t.WellFormed
  unmarked : ∀ h n span, t.node? h = some n → n.dirty = false → n.span = some span →
    t.source.slice span.start span.stop = Part.flat t.spelling n.parts

theorem SpanConsistent.faithful (hc : t.SpanConsistent) (ht : t.WellFormed) : t.Faithful :=
  ⟨ht, fun h n span hn _ hspan => hc h n span hn hspan⟩

namespace Faithful

variable (ht : t.Faithful)
include ht

theorem spelling_eq (hn : t.node? h = some n) : t.spelling h = Part.flat t.spelling n.parts := by
  cases hdirty : n.dirty with
  | true => exact ht.wellFormed.spelling_of_parts hn (.inl hdirty)
  | false =>
    cases hspan : n.span with
    | none => exact ht.wellFormed.spelling_of_parts hn (.inr hspan)
    | some span => rw [spelling_of_span hn hdirty hspan, ht.unmarked h n span hn hdirty hspan]

private theorem plainAt_eq (fuel : Nat) (hf : t.slots.size ≤ fuel + h.toNat) :
    t.plainAt fuel h = t.spelling h := by
  induction fuel generalizing h with
  | zero =>
    have hnone : t.node? h = none := by
      cases hn : t.node? h with
      | none => rfl
      | some n =>
        have := lt_nextHandle_of_node? hn
        simp only [nextHandle] at this
        lia
    rw [plainAt, spelling]
    cases t.slots.size <;> simp only [textAt, hnone]
  | succ fuel ih =>
    cases hn : t.node? h with
    | none =>
      rw [spelling]
      cases t.slots.size <;> simp only [plainAt, textAt, hn]
    | some n =>
      simp only [plainAt, hn]
      rw [ht.spelling_eq hn]
      refine Part.flat_congr fun c hc => ih ?_
      have := ht.wellFormed.descending h c (ht.wellFormed.adopted h n c hn hc)
      lia

theorem plain_eq_spelling (h : Handle) : t.plain h = t.spelling h := ht.plainAt_eq _ (by lia)

theorem plain_eq (hn : t.node? h = some n) : t.plain h = Part.flat t.plain n.parts := by
  rw [ht.plain_eq_spelling, ht.spelling_eq hn]
  exact Part.flat_congr fun c _ => (ht.plain_eq_spelling c).symm

theorem textOf (hn : t.node? h = some n) : t.textOf h = .ok (t.plain h) := by
  rw [textOf_eq hn, ht.plain_eq_spelling]

end Faithful

theorem span_eq_none_of_mem_arena {pieces : Pieces} {parent : Handle} {next : Nat}
    (hfree : pieces.SpanFree) (hn : n ∈ (pieces.arena parent next).2) : n.span = none := by
  induction pieces generalizing parent next with
  | nil => exact absurd hn List.not_mem_nil
  | text t rest ih => exact ih hfree hn
  | node kind span origin body rest ihBody ihRest =>
    obtain ⟨hspan, hbody, hrest⟩ := hfree
    simp only [Pieces.arena, List.cons_append, List.mem_cons, List.mem_append] at hn
    rcases hn with rfl | hn | hn
    · exact hspan
    · exact ihBody hbody hn
    · exact ihRest hrest hn

section Seated

variable (ht : t.WellFormed) (hs : t.seat e.touched e.operation = .ok s)
include ht hs

theorem exists_mem_arena_of_splice (hk : t.nextHandle ≤ k)
    (hn : (t.splice s e).node? k = some n) : ∃ template, e.subtree? = some template ∧
      n ∈ template.arena (some s.parent) t.slots.size := by
  have hbound := (lt_nextHandle_of_node? hn).2
  rw [nextHandle_splice] at hbound
  cases he : e.subtree? with
  | none =>
    rw [he, Option.elim_none] at hbound
    lia
  | some template =>
    obtain ⟨i, rfl⟩ : ∃ i : Nat, k = t.nextHandle + i := ⟨(k - t.nextHandle).toNat, by lia⟩
    rw [node?_splice_of_le ht hs hk, grafted, he] at hn
    exact ⟨template, rfl, List.mem_of_getElem? ((node?_graft_new template s.parent i).symm.trans hn)⟩

theorem span_splice_of_le (hfree : e.SpanFree) (hk : t.nextHandle ≤ k)
    (hn : (t.splice s e).node? k = some n) : n.span = none := by
  obtain ⟨template, he, hmem⟩ := exists_mem_arena_of_splice ht hs hk hn
  obtain ⟨hspan, hbody⟩ := hfree template he
  rcases List.mem_cons.mp hmem with rfl | hbelow
  · exact hspan
  · exact span_eq_none_of_mem_arena hbody hbelow

end Seated

/-- A call that brings in no spans keeps a tree faithful: it marks every node that it changes something
inside of. -/
theorem Faithful.splice (ht : t.Faithful) (hs : t.seat e.touched e.operation = .ok s)
    (hfree : e.SpanFree) : (t.splice s e).Faithful := by
  have hwf := ht.wellFormed
  refine ⟨wellFormed_splice hwf hs, fun h n span hn hdirty hspan => ?_⟩
  by_cases hh : h < t.nextHandle
  · obtain ⟨hrem, m, hm, -, -, hmark⟩ := exists_old_of_splice hwf hs hh hn
    have hout : ¬ t.Covers h s.parent := by
      intro hc
      rw [hmark.mpr (.inr hc)] at hdirty
      cases hdirty
    have hsame := node?_splice_of_clear hwf hs hm hrem hout (t.covers_refl h)
    obtain rfl : n = m := Option.some.inj (hn.symm.trans (hsame.trans hm))
    rw [source_splice, ht.unmarked h n span hm hdirty hspan]
    refine Part.flat_congr fun c hc => ?_
    have hchild := hwf.adopted h n c hm hc
    obtain ⟨k, hk⟩ := hchild.inner_live
    have hne : c ≠ e.touched := by
      rintro rfl
      exact hout (.inl (hchild.unique (seat_spec hs).1).symm)
    exact (spelling_splice_of_clear hwf hs hk (child_not_mem_removed hwf hs hchild hne hrem)
      fun hc => hout (hchild.encloses.covers.trans hc)).symm
  · rw [span_splice_of_le hwf hs hfree (by lia) hn] at hspan
    cases hspan

theorem Faithful.call (ht : t.Faithful) (hfree : e.SpanFree) : (t.call e).Faithful := by
  cases hs : t.seat e.touched e.operation with
  | error fault => rwa [Tree.call, on_procedure_of_error hs]
  | ok s =>
    rw [call_of_seat ht.wellFormed hs]
    exact ht.splice hs hfree

theorem Faithful.calls {es : List Edit} (ht : t.Faithful) (hfree : ∀ e ∈ es, e.SpanFree) :
    (t.calls es).Faithful := by
  induction es generalizing t with
  | nil => exact ht
  | cons e es ih =>
    obtain ⟨he, hes⟩ := List.forall_mem_cons.mp hfree
    exact ih (ht.call he) hes

/-- The spans of a tree as a parser leaves it spell the parts of their nodes. -/
theorem Parsed.spanConsistent (ht : t.Parsed) : t.SpanConsistent := by
  intro h n span hn hspan
  obtain rfl := Option.some.inj (hspan.symm.trans (ht.spanned h n hn))
  exact (ht.flat_eq hn (fun c hc => hc) (ht.tiled h n hn)).symm

theorem Parsed.faithful (ht : t.Parsed) : t.Faithful := ht.spanConsistent.faithful ht.wellFormed

/-- The parsed tree of two names in brackets. -/
def pair : Tree :=
  ofTemplate "f" (.ofString "(a, b)") ⟨"Pair", some ⟨0, 6⟩, some [],
    .text (.ofString "(") (.node "Name" (some ⟨1, 2⟩) (some [0]) (.text (.ofString "a") .nil)
      (.text (.ofString ", ") (.node "Name" (some ⟨4, 5⟩) (some [1]) (.text (.ofString "b") .nil)
        (.text (.ofString ")") .nil))))⟩

theorem parsed_pair : pair.Parsed :=
  parsed_ofTemplate "f" ⟨rfl, by decide, 2, rfl, by decide, ⟨by decide, rfl⟩, by decide, 5, rfl,
    by decide, ⟨by decide, rfl⟩, by decide, rfl⟩

/-- Another first name for the pair. -/
def otherName : Edit := .replace 1 (.leaf "Name" (.ofString "c"))

theorem spanFree_otherName : otherName.SpanFree := by
  simp [otherName, Edit.SpanFree, Edit.subtree?, Template.leaf, Template.SpanFree, Pieces.SpanFree]

end Tree

/-- What is done with a shelf of trees: a call on one of them, or a copy of one. -/
inductive ShelfStep where
  | call (tree : Nat) (e : Edit)
  | clone (tree : Nat)

namespace ShelfStep

variable {reached : Tree} {shelf : List Tree} {steps : List ShelfStep} {h : Handle}

/-- The shelf afterwards; a copy is put behind the other trees. -/
def apply (shelf : List Tree) : ShelfStep → List Tree
  | call i e => shelf.modify i (·.call e)
  | clone i => shelf ++ shelf[i]?.toList

/-- A call brings in no spans. -/
def SpanFree : ShelfStep → Prop
  | call _ e => e.SpanFree
  | clone _ => True

/-- A call is of a kind. -/
def Brings (Q : Edit → Prop) : ShelfStep → Prop
  | call _ e => Q e
  | clone _ => True

/-- The steps on a shelf of anything that can be called upon and copied. -/
def applyBy {α : Type} (call : α → Edit → α) (shelf : List α) : ShelfStep → List α
  | .call i e => shelf.modify i (call · e)
  | clone i => shelf ++ shelf[i]?.toList

theorem apply_eq_applyBy : apply = applyBy Tree.call := by
  funext shelf a
  cases a <;> rfl

section Shelf

variable {α : Type} {call : α → Edit → α} {P : α → Prop} {Q : Edit → Prop} {shelf : List α}

theorem forall_applyBy (hcall : ∀ x e, Q e → P x → P (call x e)) (hshelf : ∀ x ∈ shelf, P x)
    (a : ShelfStep) (ha : a.Brings Q) : ∀ x ∈ a.applyBy call shelf, P x := by
  intro x hx
  cases a with
  | call i e =>
    obtain ⟨k, hk⟩ := List.getElem?_of_mem hx
    rw [applyBy, List.getElem?_modify] at hk
    obtain ⟨y, hy, rfl⟩ := Option.map_eq_some_iff.mp hk
    have hold := hshelf y (List.mem_of_getElem? hy)
    split
    · exact hcall y e ha hold
    · exact hold
  | clone i =>
    rcases List.mem_append.mp hx with hx | hx
    · exact hshelf x hx
    · exact hshelf x (List.mem_of_getElem? (Option.mem_toList.mp hx))

theorem forall_foldl_applyBy (hcall : ∀ x e, Q e → P x → P (call x e))
    (hsteps : ∀ a ∈ steps, a.Brings Q) (hshelf : ∀ x ∈ shelf, P x) :
    ∀ x ∈ steps.foldl (applyBy call) shelf, P x := by
  induction steps generalizing shelf with
  | nil => exact hshelf
  | cons a steps ih =>
    obtain ⟨ha, hrest⟩ := List.forall_mem_cons.mp hsteps
    exact ih hrest (forall_applyBy hcall hshelf a ha)

end Shelf

theorem forall_foldl_apply {P : Tree → Prop} {Q : Edit → Prop}
    (hcall : ∀ t e, Q e → P t → P (t.call e)) (hsteps : ∀ a ∈ steps, a.Brings Q)
    (hshelf : ∀ t ∈ shelf, P t) : ∀ t ∈ steps.foldl apply shelf, P t := by
  rw [apply_eq_applyBy]
  exact forall_foldl_applyBy hcall hsteps hshelf

/-- Whatever is called on a consistent tree and on the copies that are taken on the way, every tree on the
shelf answers with the text that the parts of a node spell. -/
theorem textOf_eq_plain {file : String} {source : Text} {template : Template} (before : List Edit)
    (hc : ((Tree.ofTemplate file source template).calls before).SpanConsistent)
    (hfree : ∀ a ∈ steps, a.SpanFree)
    (hr : reached ∈ steps.foldl apply [(Tree.ofTemplate file source template).calls before])
    (hh : reached.isValid h = true) :
    ∃ n, reached.node? h = some n ∧ reached.textOf h = .ok (reached.plain h) ∧
      reached.plain h = Part.flat reached.plain n.parts := by
  have hfirst := hc.faithful ((Tree.wellFormed_ofTemplate file source template).calls before)
  have hfaithful : reached.Faithful :=
    forall_foldl_apply (fun t e he ht => Tree.Faithful.call ht he) hfree
      (fun x hx => List.mem_singleton.mp hx ▸ hfirst) reached hr
  obtain ⟨n, hn⟩ := Tree.isValid_iff.mp hh
  exact ⟨n, hn, hfaithful.textOf hn, hfaithful.plain_eq hn⟩

def pairSteps : List ShelfStep :=
  [.clone 0, .call 0 (.delete 2), .call 1 Tree.otherName]

/-- The copy keeps the name that is deleted in its model, and the model keeps the one replaced in it. -/
theorem textOf_eq_plain_pair : ∃ model copy, pairSteps.foldl apply [Tree.pair] = [model, copy] ∧
    model.textOf 0 = .ok (.ofString "(a)") ∧ copy.textOf 0 = .ok (.ofString "(c, b)") := by
  have hfree : ∀ a ∈ pairSteps, a.SpanFree := by
    simp [pairSteps, SpanFree, Edit.spanFree_delete, Tree.spanFree_otherName]
  have key : ∀ reached ∈ pairSteps.foldl apply [Tree.pair], reached.isValid 0 = true →
      reached.textOf 0 = .ok (reached.plain 0) := by
    intro reached hr hh
    obtain ⟨-, -, htext, -⟩ := textOf_eq_plain [] Tree.parsed_pair.spanConsistent hfree hr hh
    exact htext
  exact ⟨_, _, rfl, (key _ List.mem_cons_self (by decide)).trans (congrArg _ (by decide +kernel)),
    (key _ (List.mem_cons_of_mem _ List.mem_cons_self) (by decide)).trans
      (congrArg _ (by decide +kernel))⟩

end ShelfStep
end LintRepair
