import LintRepair.Proofs.Tree.Preservation
import LintRepair.Repair.Batch
import Mathlib.Data.List.Pairwise

/-!
# When a batch lands

A batch is applied deepest first, so a node that an edit still needs can only have gone through an
earlier edit of that very node. The statement compares the planned order, measured on the original
tree, with the trees that the edits run on.
-/
namespace LintRepair

theorem pairwise_iff_of_asymm {α : Type} {R S : α → α → Prop} {xs : List α} (hS : xs.Pairwise S)
    (hasymm : ∀ a ∈ xs, ∀ b ∈ xs, S a b → ¬ S b a) :
    xs.Pairwise R ↔ ∀ a ∈ xs, ∀ b ∈ xs, S a b → R a b := by
  constructor
  · intro hR
    induction xs with
    | nil => exact fun a ha => absurd ha List.not_mem_nil
    | cons x rest ih =>
      obtain ⟨hSx, hSrest⟩ := List.pairwise_cons.mp hS
      obtain ⟨hRx, hRrest⟩ := List.pairwise_cons.mp hR
      have hrest := ih hSrest (fun a ha b hb => hasymm a (List.mem_cons_of_mem _ ha) b
        (List.mem_cons_of_mem _ hb)) hRrest
      intro a ha b hb hab
      rcases List.mem_cons.mp ha with rfl | ha'
      · rcases List.mem_cons.mp hb with rfl | hb'
        · exact absurd hab (hasymm _ ha _ hb hab)
        · exact hRx b hb'
      · rcases List.mem_cons.mp hb with rfl | hb'
        · exact absurd (hSx a ha') (hasymm _ ha _ hb hab)
        · exact hrest a ha' b hb' hab
  · intro hR
    exact hS.imp_of_mem fun ha hb hab => hR _ ha _ hb hab

theorem pairwise_zipIdx_lt {α : Type} (xs : List α) : xs.zipIdx.Pairwise fun x y => x.2 < y.2 := by
  have hlt : (xs.zipIdx.map Prod.snd).Pairwise (· < ·) := by
    rw [List.zipIdx_map_snd]
    exact List.pairwise_lt_range' 1
  exact List.pairwise_map.mp hlt

namespace PlannedEdit

theorem le_iff {a b : PlannedEdit} : a.le b = true ↔ b.depth < a.depth ∨ a.depth = b.depth ∧
    (b.start < a.start ∨ a.start = b.start ∧ a.order ≤ b.order) := by
  unfold le
  split
  · simp only [decide_eq_true_eq]; lia
  · split <;> simp only [decide_eq_true_eq] <;> lia

theorem le_trans {a b c : PlannedEdit} (hab : a.le b = true) (hbc : b.le c = true) :
    a.le c = true := by
  rw [le_iff] at hab hbc ⊢
  lia

theorem le_total (a b : PlannedEdit) : (a.le b || b.le a) = true := by
  rw [Bool.or_eq_true, le_iff, le_iff]
  lia

end PlannedEdit

/-- The first edit does not take away the very node that the second one touches. -/
def Edit.Keeps (d e : Edit) : Prop := d.removes = true → e.touched ≠ d.touched

instance (d e : Edit) : Decidable (d.Keeps e) :=
  inferInstanceAs (Decidable (d.removes = true → e.touched ≠ d.touched))

namespace Tree

variable {t t₀ next : Tree} {e : Edit} {done : List Edit} {h p : Handle}

/-- What planning makes of an edit and its place in the list. -/
def placement (t : Tree) (order : Nat) (x : String × Edit) : PlannedEdit :=
  ⟨x.2, x.1, (t.ancestors x.2.touched).length, (t.source.location (t.spanOf x.2.touched)).start,
    order⟩

theorem placeEdits_eq {xs : List (String × Edit)} (order : Nat)
    (hlive : ∀ x ∈ xs, ∃ n, t.node? x.2.touched = some n) :
    t.placeEdits order xs = .ok ((xs.zipIdx order).map fun x => t.placement x.2 x.1) := by
  induction xs generalizing order with
  | nil => rfl
  | cons x rest ih =>
    obtain ⟨n, hn⟩ := hlive x List.mem_cons_self
    have hrest := ih (order + 1) fun y hy => hlive y (List.mem_cons_of_mem _ hy)
    simp only [placeEdits, depth_eq hn, location_eq hn, hrest, bind, Except.bind, pure, Except.pure]
    rfl

/-- How a tree in the middle of a batch relates to the tree that the batch was planned on. -/
structure Follows (t₀ t : Tree) (done : List Edit) : Prop where
  wellFormed : t.WellFormed
  nextHandle_le : t₀.nextHandle ≤ t.nextHandle
  parent_old : ∀ p h, h < t₀.nextHandle → t.IsParent p h → t₀.IsParent p h
  live_iff : ∀ h, (∃ n, t₀.node? h = some n) → ((∃ n, t.node? h = some n) ↔
    ∀ e ∈ done, e.removes = true → ¬ t₀.Covers e.touched h)

theorem follows_refl (ht : t.WellFormed) : t.Follows t [] where
  wellFormed := ht
  nextHandle_le := by lia
  parent_old _ _ _ hp := hp
  live_iff h hh := iff_of_true hh fun e he => absurd he List.not_mem_nil

namespace Follows

variable (hf : t₀.Follows t done) (ht₀ : t₀.WellFormed)
include hf ht₀

theorem isParent_iff (hh : ∃ n, t₀.node? h = some n) (hl : ∃ n, t.node? h = some n) :
    t.IsParent p h ↔ t₀.IsParent p h := by
  obtain ⟨n₀, hn₀⟩ := hh
  obtain ⟨n, hn⟩ := hl
  have hlt := (lt_nextHandle_of_node? hn₀).2
  refine ⟨hf.parent_old p h hlt, fun hp => ?_⟩
  have hr : h ≠ root := by
    have := ht₀.descending p h hp
    simp only [root]
    lia
  obtain ⟨q, -, hq⟩ := hf.wellFormed.exists_parent hn hr
  rwa [hp.unique (hf.parent_old q h hlt hq)]

/-- On the nodes that are still there, both trees agree on what lies inside what. -/
theorem covers_iff (hh : ∃ n, t₀.node? h = some n) (hl : ∃ n, t.node? h = some n) :
    t.Covers p h ↔ t₀.Covers p h := by
  have hback : ∀ q x, t.IsParent q x → (∃ n, t₀.node? x = some n) → t₀.IsParent q x :=
    fun q x hq hx => (hf.isParent_iff ht₀ hx hq.inner_live).mp hq
  have hon : ∀ q x, t₀.IsParent q x → (∃ n, t.node? x = some n) → t.IsParent q x :=
    fun q x hq hx => (hf.isParent_iff ht₀ hq.inner_live hx).mpr hq
  refine or_congr_right ⟨fun hx => ?_, fun hx => ?_⟩
  · exact hx.transfer (fun q x hq hx => ht₀.parent_live (hback q x hq hx)) hback hh
  · exact hx.transfer (fun q x hq hx => hf.wellFormed.parent_live (hon q x hq hx)) hon hl

theorem apply (happly : e.apply t = .ok next) :
    t₀.Follows next (done ++ [e]) := by
  obtain ⟨s, hs, rfl⟩ := apply_eq_ok_iff.mp happly
  have ht := hf.wellFormed
  obtain ⟨m, hm⟩ := (seat_spec hs).1.inner_live
  refine ⟨wellFormed_splice ht hs, ?_, ?_, ?_⟩
  · have := hf.nextHandle_le
    rw [nextHandle_splice]
    lia
  · intro p h hh hp
    have := hf.nextHandle_le
    exact hf.parent_old p h hh ((isParent_splice_of_lt ht hs (by lia)).mp hp).1
  · intro h hh
    obtain ⟨n₀, hn₀⟩ := hh
    have hlt := (lt_nextHandle_of_node? hn₀).2
    have hle := hf.nextHandle_le
    rw [live_splice_iff ht hs, or_iff_left (by lia), mem_removed_iff ht hm]
    constructor
    · rintro ⟨hl, hrem⟩ d hd hr hc
      rcases List.mem_append.mp hd with hd | hd
      · exact (hf.live_iff h ⟨n₀, hn₀⟩).mp hl d hd hr hc
      · rw [List.mem_singleton.mp hd] at hr hc
        exact hrem ⟨hr, (hf.covers_iff ht₀ ⟨n₀, hn₀⟩ hl).mpr hc⟩
    · intro hall
      have hl := (hf.live_iff h ⟨n₀, hn₀⟩).mpr fun d hd => hall d (List.mem_append_left _ hd)
      refine ⟨hl, ?_⟩
      rintro ⟨hr, hc⟩
      exact hall e (List.mem_append_right _ List.mem_cons_self) hr
        ((hf.covers_iff ht₀ ⟨n₀, hn₀⟩ hl).mp hc)

/-- An edit of an original node lands exactly when no earlier edit took that node away. -/
theorem apply_cases (hp : t₀.IsParent p e.touched) :
    ((∀ d ∈ done, d.removes = true → ¬ t₀.Covers d.touched e.touched) ∧
      ∃ next, e.apply t = .ok next) ∨
    (¬ (∀ d ∈ done, d.removes = true → ¬ t₀.Covers d.touched e.touched) ∧
      e.apply t = .error (.invalidHandle e.touched)) := by
  rw [← hf.live_iff e.touched hp.inner_live]
  cases hn : t.node? e.touched with
  | none =>
    refine .inr ⟨by simp, ?_⟩
    rw [apply_eq_splice]
    simp [seat, get_of_node?_eq_none hn, bind, Except.bind, Except.map]
  | some n =>
    refine .inl ⟨⟨n, rfl⟩, ?_⟩
    obtain ⟨s, hs⟩ := exists_seat hf.wellFormed
      ((hf.isParent_iff ht₀ hp.inner_live ⟨n, hn⟩).mpr hp) e.operation
    exact ⟨_, apply_eq_ok_iff.mpr ⟨s, hs, rfl⟩⟩

end Follows

/-- The second edit does not need a node that the first takes away. -/
def Spares (t : Tree) (d e : Edit) : Prop := d.removes = true → ¬ t.Covers d.touched e.touched

/-- The fault of a batch at a planned edit whose node is gone. -/
def lostAnchor (p : PlannedEdit) : Fault :=
  .batchFailed p.edit.label p.ruleId p.edit.touched (Fault.invalidHandle p.edit.touched).message

theorem applyPlanned_spec (ht₀ : t₀.WellFormed) {plan : List PlannedEdit}
    (hf : t₀.Follows t done) (hlive : ∀ p ∈ plan, ∃ q, t₀.IsParent q p.edit.touched) :
    ((∀ d ∈ done, ∀ p ∈ plan, t₀.Spares d p.edit) ∧
      plan.Pairwise (fun p q => t₀.Spares p.edit q.edit) ∧
      ∃ edited, t.applyPlanned plan = .ok edited ∧
        t₀.Follows edited (done ++ plan.map (·.edit))) ∨
    (¬ ((∀ d ∈ done, ∀ p ∈ plan, t₀.Spares d p.edit) ∧
        plan.Pairwise fun p q => t₀.Spares p.edit q.edit) ∧
      ∃ p ∈ plan, t.applyPlanned plan = .error (lostAnchor p)) := by
  induction plan generalizing t done with
  | nil =>
    refine .inl ⟨fun d _ p hp => absurd hp List.not_mem_nil, .nil, t, rfl, ?_⟩
    rwa [List.map_nil, List.append_nil]
  | cons p rest ih =>
    obtain ⟨q, hq⟩ := hlive p List.mem_cons_self
    rcases hf.apply_cases ht₀ hq with ⟨hspared, next, hnext⟩ | ⟨hlost, herror⟩
    · have hstep := hf.apply ht₀ hnext
      have hsplit : (∀ d ∈ done ++ [p.edit], ∀ q ∈ rest, t₀.Spares d q.edit) ↔
          (∀ d ∈ done, ∀ q ∈ rest, t₀.Spares d q.edit) ∧
            ∀ q ∈ rest, t₀.Spares p.edit q.edit := by
        simp only [List.mem_append, List.mem_singleton, or_imp, forall_and, forall_eq]
      simp only [List.mem_cons, forall_eq_or_imp, List.pairwise_cons, applyPlanned, hnext]
      rcases ih hstep fun q hq => hlive q (List.mem_cons_of_mem _ hq) with
        ⟨hdone, hpair, edited, hrun, hend⟩ | ⟨hfail, q, hq, hrun⟩
      · obtain ⟨hold, hnew⟩ := hsplit.mp hdone
        rw [List.append_assoc] at hend
        exact .inl ⟨fun d hd => ⟨hspared d hd, hold d hd⟩, ⟨hnew, hpair⟩, edited, hrun, hend⟩
      · refine .inr ⟨?_, q, .inr hq, hrun⟩
        rintro ⟨hdone, hnew, hpair⟩
        exact hfail ⟨hsplit.mpr ⟨fun d hd => (hdone d hd).2, hnew⟩, hpair⟩
    · refine .inr ⟨?_, p, List.mem_cons_self, ?_⟩
      · rintro ⟨hdone, -⟩
        exact hlost fun d hd => hdone d hd p List.mem_cons_self
      · simp only [applyPlanned, herror]
        rfl

section Batches

variable {sets : List EditSet}

/-- The edits of a batch in set order, each with its place in the tree. -/
def placed (t : Tree) (sets : List EditSet) : List PlannedEdit :=
  ((sets.flatMap fun s => s.edits.map (s.ruleId, ·)).zipIdx 0).map fun x => t.placement x.2 x.1

/-- The order in which a batch is applied. -/
def plan (t : Tree) (sets : List EditSet) : List PlannedEdit :=
  (t.placed sets).mergeSort PlannedEdit.le

theorem mem_plan_iff {p : PlannedEdit} : p ∈ t.plan sets ↔ p ∈ t.placed sets :=
  List.mem_mergeSort

theorem eq_of_mem_placed {p : PlannedEdit} (hp : p ∈ t.placed sets) :
    (∃ s ∈ sets, p.edit ∈ s.edits ∧ s.ruleId = p.ruleId) ∧
      p = t.placement p.order (p.ruleId, p.edit) := by
  obtain ⟨⟨x, i⟩, hx, rfl⟩ := List.mem_map.mp hp
  obtain ⟨s, hs, hmem⟩ := List.mem_flatMap.mp (List.fst_mem_of_mem_zipIdx hx)
  obtain ⟨e, he, rfl⟩ := List.mem_map.mp hmem
  exact ⟨⟨s, hs, he, rfl⟩, rfl⟩

theorem map_edit_placed : (t.placed sets).map (·.edit) = sets.flatMap (·.edits) := by
  have hsplit : ((t.placed sets).map (·.edit)) =
      (((sets.flatMap fun s => s.edits.map (s.ruleId, ·)).zipIdx 0).map Prod.fst).map Prod.snd := by
    simp only [placed, placement, List.map_map, Function.comp_def]
  rw [hsplit, List.zipIdx_map_fst, List.map_flatMap]
  simp only [List.map_map, Function.comp_def, List.map_id']

theorem placed_ordered : (t.placed sets).Pairwise fun a b => a.order < b.order :=
  List.pairwise_map.mpr (pairwise_zipIdx_lt _)

theorem plan_ordered :
    (t.plan sets).Pairwise fun a b => a.le b = true ∧ a.order ≠ b.order := by
  have hle : (t.plan sets).Pairwise fun a b => a.le b = true :=
    @List.pairwise_mergeSort _ PlannedEdit.le (fun _ _ _ => PlannedEdit.le_trans)
      PlannedEdit.le_total _
  have hne : (t.placed sets).Pairwise fun a b => a.order ≠ b.order :=
    placed_ordered.imp fun h => by lia
  exact hle.and ((List.mergeSort_perm _ _).symm.pairwise hne fun h => Ne.symm h)

/-- Deeper nodes go first, so an edit takes another edit's node away only by touching it. -/
theorem spares_iff_keeps (ht : t.WellFormed) {a b : PlannedEdit} (ha : a ∈ t.placed sets)
    (hb : b ∈ t.placed sets) (hle : a.le b = true) :
    t.Spares a.edit b.edit ↔ a.edit.Keeps b.edit := by
  refine imp_congr_right fun _ => not_congr ⟨?_, .inl⟩
  rintro (h | h)
  · exact h
  · have hdepth := ht.descending.length_ancestors_lt h
    rw [PlannedEdit.le_iff, (eq_of_mem_placed ha).2, (eq_of_mem_placed hb).2] at hle
    simp only [placement] at hle
    lia

theorem le_iff_of_touched_eq {a b : PlannedEdit} (ha : a ∈ t.placed sets) (hb : b ∈ t.placed sets)
    (h : b.edit.touched = a.edit.touched) : a.le b = true ↔ a.order ≤ b.order := by
  rw [PlannedEdit.le_iff]
  have hdepth : a.depth = b.depth := by
    rw [(eq_of_mem_placed ha).2, (eq_of_mem_placed hb).2]
    simp only [placement, h]
  have hstart : a.start = b.start := by
    rw [(eq_of_mem_placed ha).2, (eq_of_mem_placed hb).2]
    simp only [placement, h]
  lia

theorem plan_spares_iff (ht : t.WellFormed) :
    (t.plan sets).Pairwise (fun a b => t.Spares a.edit b.edit) ↔
      (sets.flatMap (·.edits)).Pairwise Edit.Keeps := by
  rw [← map_edit_placed (t := t), List.pairwise_map]
  rw [pairwise_iff_of_asymm plan_ordered, pairwise_iff_of_asymm placed_ordered]
  · simp only [mem_plan_iff]
    constructor
    · intro h a ha b hb hab hr heq
      have hle := (le_iff_of_touched_eq ha hb heq).mpr (by lia)
      exact (spares_iff_keeps ht ha hb hle).mp (h a ha b hb ⟨hle, by lia⟩) hr heq
    · intro h a ha b hb hab
      rw [spares_iff_keeps ht ha hb hab.1]
      intro hr heq
      have hle := (le_iff_of_touched_eq ha hb heq).mp hab.1
      exact h a ha b hb (by lia) hr heq
  · intro a _ b _ hab hba
    lia
  · intro a _ b _ hab hba
    have hle := PlannedEdit.le_iff.mp hab.1
    have hge := PlannedEdit.le_iff.mp hba.1
    lia

theorem planEdits_eq (hlive : ∀ s ∈ sets, ∀ e ∈ s.edits, ∃ n, t.node? e.touched = some n) :
    t.planEdits sets = .ok (t.plan sets) := by
  have hall : ∀ x ∈ sets.flatMap (fun s => s.edits.map (s.ruleId, ·)),
      ∃ n, t.node? x.2.touched = some n := by
    intro x hx
    obtain ⟨s, hs, hmem⟩ := List.mem_flatMap.mp hx
    obtain ⟨e, he, rfl⟩ := List.mem_map.mp hmem
    exact hlive s hs e he
  rw [planEdits, placeEdits_eq 0 hall]
  rfl

/-- A batch lands as a whole exactly when no edit follows the removal of its own node, whatever the
other edits do around it; otherwise it fails on a node that is gone. -/
theorem applyEditSets_iff (ht : t.WellFormed)
    (hlive : ∀ s ∈ sets, ∀ e ∈ s.edits, e.touched ≠ root ∧ ∃ n, t.node? e.touched = some n) :
    ((∃ edited, t.applyEditSets sets = .ok edited) ↔
        (sets.flatMap (·.edits)).Pairwise Edit.Keeps) ∧
      (∀ edited, t.applyEditSets sets = .ok edited → edited.WellFormed) ∧
      ∀ fault, t.applyEditSets sets = .error fault →
        fault.failure?.map (fun f => (f.kind, f.code)) = some (.treeMutation, "T004") ∧
        ∃ s ∈ sets, ∃ e ∈ s.edits, fault =
          .batchFailed e.label s.ruleId e.touched (Fault.invalidHandle e.touched).message := by
  have hparent : ∀ p ∈ t.plan sets, ∃ q, t.IsParent q p.edit.touched := by
    intro p hp
    obtain ⟨⟨s, hs, he, -⟩, -⟩ := eq_of_mem_placed (mem_plan_iff.mp hp)
    obtain ⟨hr, n, hn⟩ := hlive s hs _ he
    obtain ⟨q, -, hq⟩ := ht.exists_parent hn hr
    exact ⟨q, hq⟩
  have hrun : t.applyEditSets sets = t.applyPlanned (t.plan sets) := by
    rw [applyEditSets, planEdits_eq fun s hs e he => (hlive s hs e he).2]
    rfl
  rw [hrun, ← plan_spares_iff ht]
  rcases applyPlanned_spec ht (follows_refl ht) hparent with
    ⟨-, hpair, edited, hok, hend⟩ | ⟨hfail, p, hp, herror⟩
  · refine ⟨iff_of_true ⟨edited, hok⟩ hpair, ?_, ?_⟩
    · intro other hother
      rw [hok] at hother
      cases hother
      exact hend.wellFormed
    · intro fault hfault
      rw [hok] at hfault
      cases hfault
  · refine ⟨iff_of_false ?_ ?_, ?_, ?_⟩
    · rintro ⟨edited, hok⟩
      rw [herror] at hok
      cases hok
    · intro hpair
      exact hfail ⟨fun d hd => absurd hd List.not_mem_nil, hpair⟩
    · intro edited hok
      rw [herror] at hok
      cases hok
    · intro fault hfault
      rw [herror] at hfault
      cases hfault
      obtain ⟨⟨s, hs, he, hid⟩, -⟩ := eq_of_mem_placed (mem_plan_iff.mp hp)
      refine ⟨rfl, s, hs, p.edit, he, ?_⟩
      rw [lostAnchor, hid]

/-- A tree of three nodes, each inside the one before. -/
def nested : Tree :=
  ofTemplate "f" [] ⟨"a", none, none,
    .node "b" none none (.node "c" none none .nil .nil) .nil⟩

/-- A repair of the middle node of such a tree. -/
def sampleSet (edits : List Edit) : EditSet :=
  ⟨⟨"r", "f", 1, "b", "m", .warning, ⟨1, 1, 0, 0⟩⟩, edits, false⟩

/-- An outer node may be replaced before its inner node is edited, but no edit may follow the
removal of the inner node. -/
theorem applyEditSets_nested :
    (∃ edited, nested.applyEditSets [sampleSet [.replace 1 (.leaf "d" [])],
      sampleSet [.insertAfter 2 (.leaf "e" []) none, .delete 2]] = .ok edited) ∧
    ¬ ∃ edited, nested.applyEditSets [sampleSet [.delete 2],
      sampleSet [.insertBefore 2 (.leaf "e" []) none]] = .ok edited := by
  have ht : nested.WellFormed := wellFormed_ofTemplate ..
  have hone : (1 : Handle) ≠ root ∧ ∃ n, nested.node? 1 = some n := ⟨by decide, _, rfl⟩
  have htwo : (2 : Handle) ≠ root ∧ ∃ n, nested.node? 2 = some n := ⟨by decide, _, rfl⟩
  constructor
  · refine (applyEditSets_iff ht ?_).1.mpr (by decide)
    simp [sampleSet, Edit.touched, hone, htwo]
  · rw [(applyEditSets_iff ht (by simp [sampleSet, Edit.touched, htwo])).1]
    decide

end Batches

end Tree
end LintRepair
