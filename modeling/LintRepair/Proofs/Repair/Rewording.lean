import LintRepair.Proofs.Repair.Landing
import Mathlib.Data.List.Basic

/-!
# Texts in the middle of a batch

How the parts of an original node differ from what they were, after some edits of a batch of
replacements and insertions: what they spell is what they spelled before, with each edit taken into
account at its node. An omitted separator is the one that the original tree gives, since a node is
edited before its neighbours on the left are.
-/
namespace LintRepair

namespace Part

variable {front back : List Part} {c : Handle}

theorem Tidy.left (h : Tidy (front ++ back)) : Tidy front :=
  ⟨fun hmem => h.1 (List.mem_append_left _ hmem), (List.isChain_append.mp h.2).1⟩

theorem normalize_append_node (h : Tidy front) (c : Handle) (back : List Part) :
    normalize (front ++ node c :: back) = front ++ node c :: normalize back := by
  induction front with
  | nil => rfl
  | cons part rest ih =>
    obtain ⟨hempty, hchain⟩ := h
    obtain ⟨hjoin, htail⟩ := List.isChain_cons.mp hchain
    have hrest := ih ⟨fun hmem => hempty (List.mem_cons_of_mem _ hmem), htail⟩
    cases part with
    | node d => rw [List.cons_append, normalize, hrest, List.cons_append]
    | text s =>
      have hs : ¬ s.isEmpty = true := by
        rw [List.isEmpty_iff]
        rintro rfl
        exact hempty List.mem_cons_self
      rw [List.cons_append, normalize, if_neg hs, hrest]
      cases rest with
      | nil => rfl
      | cons q more =>
        cases q with
        | node d => rfl
        | text u => exact absurd (hjoin (text u) rfl) (by simp [isNode])

theorem exists_front_of_ne {x y : Handle} {before after : List Part}
    (h : front ++ node x :: back = before ++ node y :: after) (hne : y ≠ x)
    (hfront : y ∉ handles front) : ∃ between, before = front ++ node x :: between := by
  rcases List.append_eq_append_iff.mp h with ⟨more, rfl, hmore⟩ | ⟨more, rfl, hmore⟩
  · cases more with
    | nil => exact absurd (node.inj (List.cons.inj hmore).1).symm hne
    | cons q between =>
      rw [← (List.cons.inj hmore).1]
      exact ⟨between, rfl⟩
  · cases more with
    | nil => exact absurd (node.inj (List.cons.inj hmore).1) hne
    | cons q between =>
      refine absurd (mem_handles_iff.mpr ?_) hfront
      rw [(List.cons.inj hmore).1]
      exact List.mem_append_right _ List.mem_cons_self

end Part

namespace Tree

variable {t t₀ next edited : Tree} {d e : Edit} {done : List Edit} {s : Seat} {h p : Handle}
  {n n₀ n' : Node} {plan : List PlannedEdit} {template : Template}

theorem seat_congr {operation : String} (hs : t.seat h operation = .ok s) (operation' : String) :
    t.seat h operation' = .ok s := by
  simp only [seat, bind, Except.bind] at hs ⊢
  split at hs
  · cases hs
  · split at hs
    · cases hs
    · exact hs

/-- The separator of an insertion beside a node. -/
def separatorAt (t : Tree) (h : Handle) : Text :=
  match t.seat h "insert before" with
  | .ok seat => Part.separator seat.before
  | .error _ => Part.separator []

theorem separatorAt_of_seat {operation : String} (hs : t.seat h operation = .ok s) :
    t.separatorAt h = Part.separator s.before := by
  rw [separatorAt, seat_congr hs]

end Tree

namespace Edit

/-- What an edit makes of the text of its node. -/
def reword (t : Tree) (own : Text) : Edit → Text
  | replace _ template => template.plain
  | insertBefore h template sep => template.plain ++ (sep.getD (t.separatorAt h) ++ own)
  | insertAfter h template sep => own ++ (sep.getD (t.separatorAt h) ++ template.plain)
  | delete _ => []

/-- The spelling of the nodes with the edit of one of them taken into account. -/
def revise (t : Tree) (e : Edit) (spell : Handle → Text) (h : Handle) : Text :=
  if h = e.touched then e.reword t (spell h) else spell h

end Edit

namespace Tree

variable {t t₀ next edited : Tree} {d e : Edit} {done : List Edit} {s : Seat} {h p : Handle}
  {n n₀ n' : Node} {plan : List PlannedEdit} {template : Template} {spell : Handle → Text}

def revised (t : Tree) (done : List Edit) (spell : Handle → Text) : Handle → Text :=
  done.foldr (Edit.revise t) spell

theorem revised_concat (t : Tree) (done : List Edit) (e : Edit) (spell : Handle → Text) :
    t.revised (done ++ [e]) spell = t.revised done (e.revise t spell) := List.foldr_append

theorem revised_of_untouched (h : ∀ e ∈ done, e.touched ≠ p) :
    t.revised done spell p = spell p := by
  induction done with
  | nil => rfl
  | cons d rest ih =>
    obtain ⟨hd, hrest⟩ := List.forall_mem_cons.mp h
    exact (if_neg (Ne.symm hd)).trans (ih hrest)

theorem revised_touched (hapart : done.Pairwise t.Apart) (he : e ∈ done) :
    t.revised done spell e.touched = e.reword t (spell e.touched) := by
  induction done with
  | nil => exact absurd he List.not_mem_nil
  | cons d rest ih =>
    obtain ⟨hd, hrest⟩ := List.pairwise_cons.mp hapart
    rcases List.mem_cons.mp he with rfl | he
    · have hown : t.revised rest spell e.touched = spell e.touched :=
        revised_of_untouched fun x hx heq => hd x hx (.inl (.inl heq))
      exact (if_pos rfl).trans (congrArg (fun own => e.reword t own) hown)
    · have hne : e.touched ≠ d.touched := fun heq => hd e he (.inl (.inl heq))
      exact (if_neg hne).trans (ih hrest he)

/-- The first edit is not of the second one's node, nor of a node left of it in the same parent. -/
def Trails (t : Tree) (d e : Edit) : Prop :=
  d.touched ≠ e.touched ∧ ∀ p n front back, t.node? p = some n →
    n.parts = front ++ .node e.touched :: back → d.touched ∉ Part.handles front

/-- How an original node has changed after some edits, new nodes being spelled as given. -/
structure Mended (spell₀ : Handle → Text) (t₀ : Tree) (done : List Edit) (h : Handle)
    (n₀ n : Node) : Prop where
  span : n.span = n₀.span
  dirty : n.dirty = true ↔ n₀.dirty = true ∨ ∃ e ∈ done, t₀.Encloses h e.touched
  /-- Nothing has changed left of a node that has no edited node to its left. -/
  front : ∀ front x back, n₀.parts = front ++ .node x :: back →
    (∀ d ∈ done, d.touched ≠ x ∧ d.touched ∉ Part.handles front) →
    ∃ back', n.parts = front ++ .node x :: back'
  flat : ∀ spell : Handle → Text, (∀ k, t₀.nextHandle ≤ k → spell k = spell₀ k) →
    Part.flat spell n.parts = Part.flat (t₀.revised done spell) n₀.parts

/-- How a tree in the middle of a batch spells what the tree before the batch had. -/
structure Reworded (spell₀ : Handle → Text) (t₀ t : Tree) (done : List Edit) : Prop where
  source : t.source = t₀.source
  mended : ∀ h n, h < t₀.nextHandle → t.node? h = some n →
    ∃ n₀, t₀.node? h = some n₀ ∧ Mended spell₀ t₀ done h n₀ n

theorem reworded_refl (spell₀ : Handle → Text) (t : Tree) : Reworded spell₀ t t [] where
  source := rfl
  mended h n _ hn := ⟨n, hn, rfl, by simp, fun front x back hparts _ => ⟨back, hparts⟩,
    fun spell _ => rfl⟩

theorem span_of_splice (ht : t.WellFormed) (hs : t.seat e.touched e.operation = .ok s)
    (hn : t.node? h = some n) (hn' : (t.splice s e).node? h = some n') : n'.span = n.span := by
  obtain ⟨hrem, -⟩ := exists_old_of_splice ht hs (lt_nextHandle_of_node? hn).2 hn'
  rw [node?_splice_of_kept ht hs hn hrem] at hn'
  cases hn'
  rfl

theorem touched_not_mem_beside (ht : t.WellFormed)
    (hs : t.seat e.touched e.operation = .ok s) :
    Part.node e.touched ∉ s.before ∧ Part.node e.touched ∉ s.after := by
  have hsides := (touched_not_mem_sides ht hs).2
  rwa [List.mem_append, not_or, Part.mem_handles_iff, Part.mem_handles_iff] at hsides

theorem flat_newParts (ht : t.WellFormed) (hs : t.seat e.touched e.operation = .ok s)
    (he : e.subtree? = some template) (hnew : spell t.nextHandle = template.plain)
    (hsep : Part.separator s.before = t₀.separatorAt e.touched) :
    Part.flat spell (e.newParts s t.nextHandle) =
      Part.flat (e.revise t₀ spell) s.parentNode.parts := by
  obtain ⟨-, -, hparts⟩ := seat_spec hs
  obtain ⟨hbefore, hafter⟩ := touched_not_mem_beside ht hs
  have hside : ∀ parts : List Part, Part.node e.touched ∉ parts →
      Part.flat (e.revise t₀ spell) parts = Part.flat spell parts := by
    intro parts hparts
    refine Part.flat_congr fun c hc => if_neg ?_
    rintro rfl
    exact hparts (Part.mem_handles_iff.mp hc)
  have htouched : e.revise t₀ spell e.touched = e.reword t₀ (spell e.touched) := if_pos rfl
  rw [hparts, Part.flat_append, Part.flat_node, hside _ hbefore, hside _ hafter, htouched]
  cases e with
  | replace h u =>
    cases he
    simp only [Edit.newParts, Part.flat_append, Part.flat_node, hnew, Edit.reword]
  | insertBefore h u sep =>
    cases he
    simp only [Edit.newParts, Part.flat_normalize, Part.flat_append, Part.flat_node, Part.flat_text,
      hnew, hsep, Edit.reword, Edit.touched, List.append_assoc]
  | insertAfter h u sep =>
    cases he
    simp only [Edit.newParts, Part.flat_normalize, Part.flat_append, Part.flat_node, Part.flat_text,
      hnew, hsep, Edit.reword, Edit.touched, List.append_assoc]
  | delete h => cases he

/-- The parts left of a node stay when a node right of it is edited. -/
theorem exists_newParts_eq {front between : List Part} {x : Handle} (new : Handle)
    (he : e.subtree? = some template) (hbefore : s.before = front ++ .node x :: between)
    (htidy : Part.Tidy front) : ∃ back, e.newParts s new = front ++ .node x :: back := by
  cases e with
  | replace h u =>
    refine ⟨between ++ .node new :: s.after, ?_⟩
    simp only [Edit.newParts, hbefore, List.append_assoc, List.cons_append]
  | insertBefore h u sep =>
    simp only [Edit.newParts, hbefore, List.append_assoc, List.cons_append]
    exact ⟨_, Part.normalize_append_node htidy x _⟩
  | insertAfter h u sep =>
    simp only [Edit.newParts, hbefore, List.append_assoc, List.cons_append]
    exact ⟨_, Part.normalize_append_node htidy x _⟩
  | delete h => cases he

namespace Reworded

variable {spell₀ : Handle → Text}

section Step

variable (hr : Reworded spell₀ t₀ t done) (hf : t₀.Follows t done) (ht₀ : t₀.WellFormed)
  (hs : t.seat e.touched e.operation = .ok s) (hp : t₀.IsParent p e.touched)
include hr hf ht₀ hs hp

/-- Edits further right leave the separator of an insertion as the original tree gives it. -/
theorem separator_eq (htrails : ∀ d ∈ done, t₀.Trails d e) :
    Part.separator s.before = t₀.separatorAt e.touched := by
  obtain ⟨s₀, hs₀⟩ := exists_seat ht₀ hp e.operation
  obtain ⟨hseat₀, hpar₀, hparts₀⟩ := seat_spec hs₀
  obtain ⟨hseat, hpar, hparts⟩ := seat_spec hs
  obtain ⟨m₀, hm₀⟩ := hp.inner_live
  have hold := hf.parent_old _ _ (lt_nextHandle_of_node? hm₀).2 hseat
  obtain hsame : s.parent = s₀.parent := hold.unique hseat₀
  obtain ⟨n₀, hn₀, hmended⟩ := hr.mended s.parent s.parentNode
    (by rw [hsame]; exact (lt_nextHandle_of_node? hpar₀).2) hpar
  rw [hsame, hpar₀] at hn₀
  cases hn₀
  obtain ⟨back, hback⟩ := hmended.front s₀.before e.touched s₀.after hparts₀ fun d hd =>
    ⟨(htrails d hd).1, (htrails d hd).2 _ _ _ _ hpar₀ hparts₀⟩
  obtain ⟨hbefore, hafter⟩ := touched_not_mem_beside hf.wellFormed hs
  have hsplit := (List.append_cons_inj_of_notMem hbefore hafter).mp (hparts.symm.trans hback)
  rw [separatorAt_of_seat hs₀, hsplit.1]

theorem splice (he : e.subtree? = some template) (hnew : spell₀ t.nextHandle = template.plain)
    (htrails : ∀ d ∈ done, t₀.Trails d e) :
    Reworded spell₀ t₀ (t.splice s e) (done ++ [e]) := by
  have ht := hf.wellFormed
  have hsep := hr.separator_eq hf ht₀ hs hp htrails
  obtain ⟨hseat, hpar, hparts⟩ := seat_spec hs
  obtain ⟨m₀, hm₀⟩ := hp.inner_live
  have htouched := (lt_nextHandle_of_node? hm₀).2
  have hnext := hf.nextHandle_le
  have hold := hf.parent_old _ _ htouched hseat
  refine ⟨(source_splice t s e).trans hr.source, fun h n' hh hn' => ?_⟩
  obtain ⟨-, n, hn, -, hparts', hdirty⟩ := exists_old_of_splice ht hs (by lia) hn'
  obtain ⟨n₀, hn₀, hmended⟩ := hr.mended h n hh hn
  refine ⟨n₀, hn₀, (span_of_splice ht hs hn hn').trans hmended.span, ?_, ?_, ?_⟩
  -- The nodes around the seat are the original ones around the edited node.
  · have hparent := hf.covers_iff ht₀ (p := h) (ht₀.parent_live hold) ⟨_, hpar⟩
    rw [hdirty, hmended.dirty, hparent, ← encloses_iff_covers_parent hold, or_assoc]
    simp only [List.mem_append, List.mem_singleton, or_and_right, exists_or, exists_eq_left]
  · intro front x back hfront hclear
    obtain ⟨back', hback'⟩ := hmended.front front x back hfront fun d hd =>
      hclear d (List.mem_append_left _ hd)
    rw [hparts']
    split
    · next hh =>
      subst hh
      rw [hpar] at hn
      cases hn
      -- The edited node stands right of all that has to stay.
      obtain ⟨hne, hleft⟩ := hclear e (List.mem_append_right _ List.mem_cons_self)
      obtain ⟨between, hbetween⟩ := Part.exists_front_of_ne (hback'.symm.trans hparts) hne hleft
      refine exists_newParts_eq t.nextHandle he hbetween ?_
      have htidy := ht₀.tidy _ _ hn₀
      rw [hfront] at htidy
      exact htidy.left
    · exact ⟨back', hback'⟩
  -- What the parts spell now is what they spelled with the edited node reworded, whatever the old
  -- nodes are spelled like: so the earlier edits can be taken into account after this one.
  · intro spell hspell
    have hrevised : ∀ k, t₀.nextHandle ≤ k → e.revise t₀ spell k = spell₀ k := by
      intro k hk
      rw [Edit.revise, if_neg (by lia)]
      exact hspell k hk
    rw [revised_concat, ← hmended.flat _ hrevised, hparts']
    split
    · next hh =>
      subst hh
      rw [hpar] at hn
      cases hn
      exact flat_newParts ht hs he ((hspell _ hnext).trans hnew) hsep
    · next hh =>
      refine Part.flat_congr fun c hc => (if_neg ?_).symm
      rintro rfl
      exact hh ((ht.adopted h n _ hn hc).unique hseat)

end Step

theorem applyPlanned (hr : Reworded spell₀ t₀ t done) (hf : t₀.Follows t done)
    (ht₀ : t₀.WellFormed) (hlive : ∀ q ∈ plan, ∃ p, t₀.IsParent p q.edit.touched)
    (hdone : ∀ d ∈ done, ∀ q ∈ plan, t₀.Trails d q.edit)
    (hplan : plan.Pairwise fun a b => t₀.Trails a.edit b.edit)
    (hnew : ∀ front q back mid, plan = front ++ q :: back → t.applyPlanned front = .ok mid →
      ∃ template, q.edit.subtree? = some template ∧ spell₀ mid.nextHandle = template.plain)
    (hrun : t.applyPlanned plan = .ok edited) :
    Reworded spell₀ t₀ edited (done ++ plan.map (·.edit)) := by
  induction plan generalizing t done with
  | nil =>
    cases hrun
    rwa [List.map_nil, List.append_nil]
  | cons q rest ih =>
    obtain ⟨next, hnext, hrest⟩ := applyPlanned_cons.mp hrun
    obtain ⟨s, hs, rfl⟩ := apply_eq_ok_iff.mp hnext
    obtain ⟨p, hp⟩ := hlive q List.mem_cons_self
    obtain ⟨hq, hpair⟩ := List.pairwise_cons.mp hplan
    obtain ⟨template, he, hspell⟩ := hnew [] q rest t rfl rfl
    have hstep := hr.splice hf ht₀ hs hp he hspell fun d hd => hdone d hd q List.mem_cons_self
    have hend := ih hstep (hf.apply ht₀ hnext) (fun x hx => hlive x (List.mem_cons_of_mem _ hx)) ?_
      hpair ?_ hrest
    · rwa [List.append_assoc] at hend
    · intro d hd x hx
      rcases List.mem_append.mp hd with hd | hd
      · exact hdone d hd x (List.mem_cons_of_mem _ hx)
      · rw [List.mem_singleton.mp hd]
        exact hq x hx
    · rintro front x back mid rfl hmid
      exact hnew (q :: front) x back mid rfl (applyPlanned_cons.mpr ⟨_, hnext, hmid⟩)

end Reworded

end Tree
end LintRepair
