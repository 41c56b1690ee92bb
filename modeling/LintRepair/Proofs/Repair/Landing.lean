import LintRepair.Proofs.Repair.Batch
import LintRepair.Proofs.Repair.Discipline
import LintRepair.Proofs.Tree.Spelling

/-!
# No edit is lost

Edits whose nodes lie apart stay out of each other's way: a batch of them succeeds, what one edit
brings in is still there when all have been made, and an original node goes only with the target of
a removal. Two selected sets are apart, so this holds of whatever is selected.
-/
namespace LintRepair

namespace Tree

variable {t t₀ mid next edited : Tree} {d e : Edit} {done : List Edit} {h p : Handle} {s : Seat}
  {sets : List EditSet} {plan : List PlannedEdit} {template : Template} {first : Nat}

/-- The nodes of two edits lie apart. -/
def Apart (t : Tree) (d e : Edit) : Prop := ¬ t.Overlaps d.touched e.touched

theorem Apart.symm (h : t.Apart d e) : t.Apart e d := fun hover => h (overlaps_comm.mp hover)

theorem Apart.keeps (h : t.Apart d e) : d.Keeps e := by
  intro _ heq
  exact h (.inl (.inl heq))

section Plans

theorem applyPlanned_append {front back : List PlannedEdit} :
    t.applyPlanned (front ++ back) = .ok edited ↔
      ∃ mid, t.applyPlanned front = .ok mid ∧ mid.applyPlanned back = .ok edited := by
  induction front generalizing t with
  | nil =>
    constructor
    · exact fun h => ⟨t, rfl, h⟩
    · rintro ⟨mid, hmid, h⟩
      cases hmid
      exact h
  | cons p rest ih =>
    simp only [List.cons_append, applyPlanned]
    cases hnext : p.edit.apply t with
    | error f => simp [throw, throwThe, MonadExceptOf.throw]
    | ok next => exact ih

theorem applyPlanned_cons {q : PlannedEdit} {rest : List PlannedEdit} :
    t.applyPlanned (q :: rest) = .ok edited ↔
      ∃ next, q.edit.apply t = .ok next ∧ next.applyPlanned rest = .ok edited := by
  rw [applyPlanned]
  cases hnext : q.edit.apply t with
  | error f => simp [throw, throwThe, MonadExceptOf.throw]
  | ok next => simp

theorem Follows.applyPlanned (hf : t₀.Follows t done) (ht₀ : t₀.WellFormed)
    (h : t.applyPlanned plan = .ok edited) :
    t₀.Follows edited (done ++ plan.map (·.edit)) := by
  induction plan generalizing t done with
  | nil =>
    cases h
    rwa [List.map_nil, List.append_nil]
  | cons q rest ih =>
    obtain ⟨next, hnext, hrest⟩ := applyPlanned_cons.mp h
    have hend := ih (hf.apply ht₀ hnext) hrest
    rwa [List.append_assoc] at hend

theorem perm_plan (t : Tree) (sets : List EditSet) :
    ((t.plan sets).map (·.edit)).Perm (sets.flatMap (·.edits)) := by
  rw [← map_edit_placed (t := t)]
  exact (List.mergeSort_perm _ _).map _

theorem plan_apart (hapart : (sets.flatMap (·.edits)).Pairwise t.Apart) :
    (t.plan sets).Pairwise fun a b => t.Apart a.edit b.edit := by
  have hplan := (perm_plan t sets).symm.pairwise hapart Apart.symm
  exact List.pairwise_map.mp hplan

theorem exists_isParent_of_mem_plan (ht : t.WellFormed)
    (hlive : ∀ s ∈ sets, ∀ e ∈ s.edits, e.touched ≠ root ∧ ∃ n, t.node? e.touched = some n)
    {q : PlannedEdit} (hq : q ∈ t.plan sets) : ∃ p, t.IsParent p q.edit.touched := by
  obtain ⟨⟨s, hs, he, -⟩, -⟩ := eq_of_mem_placed (mem_plan_iff.mp hq)
  obtain ⟨hr, n, hn⟩ := hlive s hs _ he
  obtain ⟨p, -, hp⟩ := ht.exists_parent hn hr
  exact ⟨p, hp⟩

theorem applyEditSets_of_apart (ht : t.WellFormed)
    (hlive : ∀ s ∈ sets, ∀ e ∈ s.edits, e.touched ≠ root ∧ ∃ n, t.node? e.touched = some n)
    (hapart : (sets.flatMap (·.edits)).Pairwise t.Apart) :
    t.planEdits sets = .ok (t.plan sets) ∧
      ∃ edited, t.applyEditSets sets = .ok edited ∧ t.applyPlanned (t.plan sets) = .ok edited := by
  have hplan := planEdits_eq fun s hs e he => (hlive s hs e he).2
  have hrun : t.applyEditSets sets = t.applyPlanned (t.plan sets) := by
    rw [applyEditSets, hplan]
    rfl
  refine ⟨hplan, ?_⟩
  rcases applyPlanned_spec ht (follows_refl ht) fun q hq => exists_isParent_of_mem_plan ht hlive hq
    with ⟨-, -, edited, hok, -⟩ | ⟨hfail, -⟩
  · exact ⟨edited, hrun.trans hok, hok⟩
  · refine absurd ⟨fun d hd => absurd hd List.not_mem_nil, ?_⟩ hfail
    exact (plan_spares_iff ht).mpr (hapart.imp Apart.keeps)

end Plans

/-- A subtree stands as its template put it, below a node of the tree before the batch. -/
structure Planted (t₀ t : Tree) (p : Handle) (template : Template) (first : Nat) : Prop where
  old : ∃ n, t₀.node? p = some n
  new : t₀.nextHandle ≤ first
  placed : t.Placed first (template.arena (some p) first)

theorem planted_splice (hf : t₀.Follows t done) (ht₀ : t₀.WellFormed)
    (hs : t.seat e.touched e.operation = .ok s) (hp : t₀.IsParent p e.touched)
    (he : e.subtree? = some template) :
    t₀.Planted (t.splice s e) p template t.slots.size := by
  have hseat := (seat_spec hs).1
  obtain rfl := (hf.parent_old _ _ (lt_nextHandle_of_node? hp.inner_live.choose_spec).2 hseat).unique hp
  exact ⟨ht₀.parent_live hp, hf.nextHandle_le, placed_splice hf.wellFormed hs he⟩

namespace Planted

theorem grown (h : t₀.Planted t p template first) :
    t.Grown p first (first + template.count) [(first : Handle)] :=
  grown_template template p first h.placed

theorem apply (h : t₀.Planted t p template first) (hf : t₀.Follows t done)
    (ht₀ : t₀.WellFormed) {q : Handle} (hq : t₀.IsParent q e.touched)
    (hclear : ¬ t₀.Covers e.touched p) (happly : e.apply t = .ok next) :
    t₀.Planted next p template first := by
  obtain ⟨s, hs, rfl⟩ := apply_eq_ok_iff.mp happly
  obtain ⟨hseat, -, -⟩ := seat_spec hs
  obtain ⟨m₀, hm₀⟩ := hq.inner_live
  obtain ⟨m, hm⟩ := hseat.inner_live
  have ht := hf.wellFormed
  have hold := hf.parent_old _ _ (lt_nextHandle_of_node? hm₀).2 hseat
  obtain ⟨k₀, hk₀⟩ := ht₀.parent_live hold
  have htouched := (lt_nextHandle_of_node? hm₀).2
  have hparent := (lt_nextHandle_of_node? hk₀).2
  have hfirst := h.new
  refine ⟨h.old, hfirst, fun i n hn => ?_⟩
  have hi : i < template.count := by
    rw [← template.length_arena (some p) first]
    exact (List.getElem?_eq_some_iff.mp hn).choose
  have hk := h.placed i n hn
  -- A removal that reached the subtree would take the original node around it along.
  have hstays : (first : Int) + i ∉ e.removed t := by
    rw [mem_removed_iff ht hm]
    rintro ⟨-, hc⟩
    have hroot := h.grown.covers (h := (first : Int) + i) (by lia) (by lia)
    rcases hc.overlaps hroot with (heq | hin) | hout
    · lia
    · obtain ⟨-, -, hpar⟩ := h.grown.top first List.mem_cons_self
      have haround := (encloses_iff_covers_parent hpar).mp hin
      exact hclear ((hf.covers_iff ht₀ h.old (ht.parent_live hpar)).mp haround)
    · have := ht.descending.covers_le hout
      lia
  have hout : ¬ t.Covers (first + i) s.parent := by
    intro hc
    have := ht.descending.covers_le hc
    lia
  exact (node?_splice_of_clear ht hs hk hstays hout (t.covers_refl _)).trans hk

theorem applyPlanned (h : t₀.Planted t p template first) (hf : t₀.Follows t done)
    (ht₀ : t₀.WellFormed)
    (hclear : ∀ q ∈ plan, (∃ x, t₀.IsParent x q.edit.touched) ∧ ¬ t₀.Covers q.edit.touched p)
    (hrun : t.applyPlanned plan = .ok edited) : t₀.Planted edited p template first := by
  induction plan generalizing t done with
  | nil =>
    cases hrun
    exact h
  | cons q rest ih =>
    obtain ⟨next, hnext, hrest⟩ := applyPlanned_cons.mp hrun
    obtain ⟨⟨x, hx⟩, hq⟩ := hclear q List.mem_cons_self
    exact ih (h.apply hf ht₀ hx hq hnext) (hf.apply ht₀ hnext)
      (fun y hy => hclear y (List.mem_cons_of_mem _ hy)) hrest

end Planted

/-- The subtree of a template stands in the tree, below its root and as the template says. -/
structure Stands (t : Tree) (template : Template) (h : Handle) : Prop where
  valid : t.isValid h = true
  reachable : h ∈ t.subtree root
  kind : t.kind h = .ok template.kind
  text : t.textOf h = .ok template.plain

theorem Planted.stands (h : t₀.Planted t p template first) (ht : t.WellFormed)
    (hfree : template.SpanFree) : t.Stands template first := by
  have hplaced := h.placed
  have hn := hplaced.head
  obtain ⟨r, hr⟩ := ht.root_live
  refine ⟨isValid_iff.mpr ⟨_, hn⟩, (ht.mem_subtree_iff hr).mpr (ht.root_covers hn), ?_, ?_⟩
  · exact kind_eq hn
  · rw [textOf_eq hn, ht.spelling_of_placed hplaced hfree]

theorem planted_of_plan (ht : t.WellFormed)
    (hlive : ∀ q ∈ plan, ∃ p, t.IsParent p q.edit.touched)
    (hapart : plan.Pairwise fun a b => t.Apart a.edit b.edit)
    (hrun : t.applyPlanned plan = .ok edited) {before after : List PlannedEdit} {q : PlannedEdit}
    (hplan : plan = before ++ q :: after) (hq : q.edit.subtree? = some template) :
    ∃ mid p, t.applyPlanned before = .ok mid ∧
      q.edit.landing mid = .ok (some mid.nextHandle) ∧
      t.Planted edited p template mid.slots.size := by
  subst hplan
  obtain ⟨mid, hmid, hrest⟩ := applyPlanned_append.mp hrun
  obtain ⟨next, hnext, hafter⟩ := applyPlanned_cons.mp hrest
  have hf := (follows_refl ht).applyPlanned ht hmid
  obtain ⟨s, hs, rfl⟩ := apply_eq_ok_iff.mp hnext
  obtain ⟨p, hp⟩ := hlive q (by simp)
  have hplanted := planted_splice hf ht hs hp hq
  refine ⟨mid, p, hmid, ?_, ?_⟩
  · rw [landing_of_seat hs, hq]
    rfl
  · refine hplanted.applyPlanned (hf.apply ht hnext) ht (fun x hx => ?_) hafter
    have hqx := (List.pairwise_cons.mp (List.pairwise_append.mp hapart).2.1).1 x hx
    refine ⟨hlive x (by simp [hx]), fun hc => hqx (.inr ?_)⟩
    exact (hc.encloses_of_isParent hp).covers

section Accepted

variable {α : Type} {touched : α → List Handle} {claimed nodes : List Handle} {xs : List α}

theorem forall_of_anyM_eq_false {f : α → Except Fault Bool} (h : xs.anyM f = .ok false) :
    ∀ x ∈ xs, f x = .ok false := by
  induction xs with
  | nil => exact fun x hx => absurd hx List.not_mem_nil
  | cons x rest ih =>
    simp only [List.anyM, bind, Except.bind] at h
    split at h
    · cases h
    · next c hc =>
      cases c with
      | true => cases h
      | false => exact List.forall_mem_cons.mpr ⟨hc, ih h⟩

theorem pairwise_of_takeClear (h : t.takeClear touched claimed xs = .ok ⟨xs, []⟩) :
    (∀ x ∈ xs, ∀ a ∈ claimed, ∀ b ∈ touched x, t.overlap a b = .ok false) ∧
      xs.Pairwise fun x y => ∀ a ∈ touched x, ∀ b ∈ touched y, t.overlap a b = .ok false := by
  induction xs generalizing claimed with
  | nil => exact ⟨fun x hx => absurd hx List.not_mem_nil, .nil⟩
  | cons x rest ih =>
    rcases takeClear_cases h with ⟨-, s, -, hsplit⟩ | ⟨hclear, ⟨taken, waiting⟩, hs, hsplit⟩
    · exact absurd (Split.mk.inj hsplit).2.symm (List.cons_ne_nil _ _)
    · cases hsplit
      obtain ⟨hrest, hpair⟩ := ih hs
      have hx : ∀ a ∈ claimed, ∀ b ∈ touched x, t.overlap a b = .ok false := fun a ha b hb =>
        forall_of_anyM_eq_false (forall_of_anyM_eq_false hclear b hb) a ha
      refine ⟨List.forall_mem_cons.mpr ⟨hx, fun y hy a ha => ?_⟩, List.pairwise_cons.mpr ⟨?_, hpair⟩⟩
      · exact hrest y hy a (List.mem_append_left _ ha)
      · exact fun y hy a ha => hrest y hy a (List.mem_append_right _ ha)

/-- The edits of selected sets lie apart as soon as those of each set do. -/
theorem apart_of_selectCompatible (ht : t.WellFormed)
    (hlive : ∀ s ∈ sets, ∀ e ∈ s.edits, ∃ n, t.node? e.touched = some n)
    (haccepted : t.selectCompatible sets = .ok ⟨sets, []⟩)
    (hapart : ∀ s ∈ sets, s.edits.Pairwise t.Apart) :
    (sets.flatMap (·.edits)).Pairwise t.Apart := by
  refine List.pairwise_flatMap.mpr ⟨hapart, ?_⟩
  refine (pairwise_of_takeClear haccepted).2.imp_of_mem fun {r s} hr hs hclear => ?_
  intro d hd e he hover
  obtain ⟨n, hn⟩ := hlive r hr d hd
  obtain ⟨m, hm⟩ := hlive s hs e he
  obtain ⟨c, hc, hiff⟩ := overlap_spec ht.descending hn hm
  rw [hclear _ (EditSet.mem_touched_iff.mpr (.inr ⟨d, hd, rfl⟩)) _
    (EditSet.mem_touched_iff.mpr (.inr ⟨e, he, rfl⟩))] at hc
  cases hc
  exact Bool.false_ne_true (hiff.mpr hover)

end Accepted

/-- A batch of selected sets is made, and nothing of it is lost: each subtree that an edit brings in
stands at the end where that edit put it, and an original node is gone only if it lies in the target
of a replacement or deletion. -/
theorem applyEditSets_selected (ht : t.WellFormed)
    (hlive : ∀ s ∈ sets, ∀ e ∈ s.edits, e.touched ≠ root ∧ ∃ n, t.node? e.touched = some n)
    (hfree : ∀ s ∈ sets, ∀ e ∈ s.edits, ∀ template, e.subtree? = some template → template.SpanFree)
    (haccepted : t.selectCompatible sets = .ok ⟨sets, []⟩)
    (hapart : ∀ s ∈ sets, s.edits.Pairwise t.Apart) :
    ∃ plan edited, t.planEdits sets = .ok plan ∧
      (plan.map (·.edit)).Perm (sets.flatMap (·.edits)) ∧ t.applyEditSets sets = .ok edited ∧
      (∀ before q after template, plan = before ++ q :: after → q.edit.subtree? = some template →
        ∃ mid new, t.applyPlanned before = .ok mid ∧ q.edit.landing mid = .ok (some new) ∧
          edited.Stands template new) ∧
      ∀ h, t.isValid h = true → (edited.isValid h = true ↔
        ¬ ∃ s ∈ sets, ∃ e ∈ s.edits, e.removes = true ∧ h ∈ t.subtree e.touched) := by
  have hpairs := apart_of_selectCompatible ht (fun s hs e he => (hlive s hs e he).2) haccepted hapart
  obtain ⟨hplan, edited, hedited, hrun⟩ := applyEditSets_of_apart ht hlive hpairs
  have hf := (follows_refl ht).applyPlanned ht hrun
  refine ⟨t.plan sets, edited, hplan, perm_plan t sets, hedited, ?_, ?_⟩
  · intro before q after template hsplit hq
    obtain ⟨mid, p, hmid, hlanding, hplanted⟩ := planted_of_plan ht
      (fun q hq => exists_isParent_of_mem_plan ht hlive hq) (plan_apart hpairs) hrun hsplit hq
    refine ⟨mid, mid.nextHandle, hmid, hlanding, hplanted.stands hf.wellFormed ?_⟩
    have hmem : q ∈ t.plan sets := by simp [hsplit]
    obtain ⟨⟨s, hs, he, -⟩, -⟩ := eq_of_mem_placed (mem_plan_iff.mp hmem)
    exact hfree s hs _ he template hq
  · intro h hh
    rw [isValid_iff, hf.live_iff h (isValid_iff.mp hh), List.nil_append]
    simp only [(perm_plan t sets).mem_iff, List.mem_flatMap, not_exists, not_and]
    constructor
    · intro hkept s hs e he hr hin
      obtain ⟨n, hn⟩ := (hlive s hs e he).2
      exact hkept e ⟨s, hs, he⟩ hr ((ht.mem_subtree_iff hn).mp hin)
    · rintro hkept e ⟨s, hs, he⟩ hr hc
      obtain ⟨n, hn⟩ := (hlive s hs e he).2
      exact hkept s hs e he hr ((ht.mem_subtree_iff hn).mpr hc)

/-- The parsed tree of two words with a blank between them. -/
def twoWords : Tree :=
  ofTemplate "f" [98, 32, 99] ⟨"a", some ⟨0, 3⟩, some [],
    .node "b" (some ⟨0, 1⟩) (some [0]) (.text [98] .nil) (.text [32]
      (.node "c" (some ⟨2, 3⟩) (some [1]) (.text [99] .nil) .nil))⟩

def wordSet (node : Handle) (edits : List Edit) : EditSet :=
  ⟨⟨"r", "f", node, "b", "m", .warning, ⟨1, 1, 0, 0⟩⟩, edits, true⟩

def wordSets : List EditSet := [wordSet 2 [.delete 2], wordSet 1 [.replace 1 (.leaf "d" [100])]]

theorem applyEditSets_selected_twoWords : ∃ edited, twoWords.applyEditSets wordSets = .ok edited ∧
    edited.isValid 0 = true ∧ edited.isValid 1 = false ∧
    ∃ new, edited.Stands (.leaf "d" [100]) new := by
  have ht : twoWords.WellFormed := wellFormed_ofTemplate ..
  have hone : (1 : Handle) ≠ root ∧ ∃ n, twoWords.node? 1 = some n := ⟨by decide, _, rfl⟩
  have htwo : (2 : Handle) ≠ root ∧ ∃ n, twoWords.node? 2 = some n := ⟨by decide, _, rfl⟩
  have haccepted : twoWords.selectCompatible wordSets = .ok ⟨wordSets, []⟩ := rfl
  obtain ⟨plan, edited, -, hperm, hedited, hlands, hlive⟩ := applyEditSets_selected ht
    (by simp [wordSets, wordSet, Edit.touched, hone, htwo])
    (by simp [wordSets, wordSet, Edit.subtree?, Template.leaf, Template.SpanFree, Pieces.SpanFree])
    haccepted (by simp [wordSets, wordSet])
  have hmem : Edit.replace 1 (.leaf "d" [100]) ∈ plan.map (·.edit) :=
    hperm.symm.subset (by simp [wordSets, wordSet])
  obtain ⟨q, hq, he⟩ := List.mem_map.mp hmem
  obtain ⟨before, after, hsplit⟩ := List.append_of_mem hq
  obtain ⟨-, new, -, -, hstands⟩ := hlands before q after (.leaf "d" [100]) hsplit (by rw [he]; rfl)
  refine ⟨edited, hedited, ?_, ?_, new, hstands⟩
  · rw [hlive 0 rfl]
    simp only [wordSets, wordSet, List.mem_cons, List.not_mem_nil, or_false, exists_eq_or_imp,
      exists_eq_left, not_or]
    exact ⟨by decide, by decide⟩
  · rw [← Bool.not_eq_true, hlive 1 rfl, not_not]
    exact ⟨wordSet 1 [.replace 1 (.leaf "d" [100])], by simp [wordSets], _, List.mem_cons_self, rfl,
      by decide⟩

end Tree
end LintRepair
