import LintRepair.Proofs.Repair.Landing
import LintRepair.Proofs.Repair.Resolution
import LintRepair.Proofs.Tree.Caching

/-!
# Compatible edit sets

Edit sets clash when a node that one of them touches is, or lies inside, a node that the other touches.
Selection goes through a list once and rejects exactly what clashes with an earlier accepted set. Sets that
are all accepted can be put in any order: in a tree whose spans are arranged, edits of one depth that start
at one place are edits of one node, so only edits of one set can tie in the plan of a batch.
-/
namespace LintRepair

/-! ## Stable sorting -/

section Sorting

variable {α : Type} {le : α → α → Bool} {xs ys : List α}

/-- Each of two members can come before the other. -/
def Tied (le : α → α → Bool) (a b : α) : Bool := le a b && le b a

theorem tied_iff {a b : α} : Tied le a b = true ↔ le a b = true ∧ le b a = true := Bool.and_eq_true_iff

variable (htrans : ∀ a b c, le a b = true → le b c = true → le a c = true)
  (htotal : ∀ a b, (le a b || le b a) = true)

include htotal in
theorem tied_refl (a : α) : Tied le a a = true := by
  have h := htotal a a
  rw [Bool.or_self] at h
  exact tied_iff.mpr ⟨h, h⟩

include htotal in
theorem mem_iff_of_tied (htied : ∀ a, xs.filter (Tied le a) = ys.filter (Tied le a)) (a : α) :
    a ∈ xs ↔ a ∈ ys := by
  have hself := tied_refl htotal a
  have h : a ∈ xs.filter (Tied le a) ↔ a ∈ ys.filter (Tied le a) := by rw [htied a]
  rwa [List.mem_filter, List.mem_filter, and_iff_left hself, and_iff_left hself] at h

include htotal in
theorem eq_of_pairwise_of_tied (hxs : xs.Pairwise fun a b => le a b = true)
    (hys : ys.Pairwise fun a b => le a b = true)
    (htied : ∀ a, xs.filter (Tied le a) = ys.filter (Tied le a)) : xs = ys := by
  have hself := tied_refl htotal
  induction xs generalizing ys with
  | nil =>
    refine (List.eq_nil_iff_forall_not_mem.mpr fun a ha => ?_).symm
    exact absurd ((mem_iff_of_tied htotal htied a).mpr ha) List.not_mem_nil
  | cons x xs ih =>
    have hmem := mem_iff_of_tied htotal htied
    cases ys with
    | nil => exact absurd ((hmem x).mp List.mem_cons_self) List.not_mem_nil
    | cons y ys =>
      obtain ⟨hx, hxrest⟩ := List.pairwise_cons.mp hxs
      obtain ⟨hy, hyrest⟩ := List.pairwise_cons.mp hys
      -- Each head stands in the other list, so the two tie, and of ties the first ones agree.
      have hxy : le x y = true := by
        rcases List.mem_cons.mp ((hmem y).mpr List.mem_cons_self) with rfl | h
        · exact (tied_iff.mp (hself y)).1
        · exact hx y h
      have hyx : le y x = true := by
        rcases List.mem_cons.mp ((hmem x).mp List.mem_cons_self) with rfl | h
        · exact (tied_iff.mp (hself x)).1
        · exact hy x h
      have hheads := htied x
      rw [List.filter_cons_of_pos (hself x), List.filter_cons_of_pos (tied_iff.mpr ⟨hxy, hyx⟩)] at hheads
      obtain ⟨rfl, -⟩ := List.cons.inj hheads
      refine congrArg (x :: ·) (ih hxrest hyrest fun a => ?_)
      have h := htied a
      rw [List.filter_cons, List.filter_cons] at h
      split at h
      · exact (List.cons.inj h).2
      · exact h

include htrans htotal

theorem filter_tied_mergeSort (a : α) :
    (xs.mergeSort le).filter (Tied le a) = xs.filter (Tied le a) := by
  have hties : (xs.filter (Tied le a)).Pairwise fun b c => le b c = true := by
    refine List.pairwise_of_forall_mem_list fun b hb c hc => ?_
    obtain ⟨-, hba⟩ := tied_iff.mp (List.mem_filter.mp hb).2
    obtain ⟨hac, -⟩ := tied_iff.mp (List.mem_filter.mp hc).2
    exact htrans b a c hba hac
  have hsub : (xs.filter (Tied le a)).Sublist (xs.mergeSort le) :=
    List.sublist_mergeSort htrans htotal hties List.filter_sublist
  have hsub' := hsub.filter (Tied le a)
  rw [List.filter_filter] at hsub'
  simp only [Bool.and_self] at hsub'
  have hlength := ((List.mergeSort_perm xs le).filter (Tied le a)).length_eq
  exact (hsub'.eq_of_length hlength.symm).symm

theorem mergeSort_eq_of_tied (h : ∀ a, xs.filter (Tied le a) = ys.filter (Tied le a)) :
    xs.mergeSort le = ys.mergeSort le := by
  refine eq_of_pairwise_of_tied htotal (List.pairwise_mergeSort htrans htotal xs)
    (List.pairwise_mergeSort htrans htotal ys) fun a => ?_
  rw [filter_tied_mergeSort htrans htotal, filter_tied_mergeSort htrans htotal, h a]

end Sorting

/-- The order of lists does not matter to what they hold together if only one of them holds anything. -/
theorem flatMap_eq_of_perm {α β : Type} {f : α → List β} {xs ys : List α} (hperm : xs.Perm ys)
    (hone : xs.Pairwise fun x y => f x = [] ∨ f y = []) : xs.flatMap f = ys.flatMap f := by
  induction hperm with
  | nil => rfl
  | cons x _ ih =>
    rw [List.flatMap_cons, List.flatMap_cons, ih (List.pairwise_cons.mp hone).2]
  | swap x y rest =>
    have hxy := (List.pairwise_cons.mp hone).1 x List.mem_cons_self
    simp only [List.flatMap_cons]
    rcases hxy with h | h
    · rw [h, List.nil_append, List.nil_append]
    · rw [h, List.nil_append, List.nil_append]
  | trans h₁ _ ih₁ ih₂ => exact (ih₁ hone).trans (ih₂ (h₁.pairwise hone Or.symm))

/-! ## Selection -/

/-- The set flags the node or has an edit on it. -/
def EditSet.Touches (s : EditSet) (h : Handle) : Prop :=
  h = s.violation.node ∨ ∃ e ∈ s.edits, e.touched = h

/-- The edits of the set, each next to the rule that asks for it. -/
def EditSet.named (s : EditSet) : List (String × Edit) := s.edits.map (s.ruleId, ·)

def PlannedEdit.named (p : PlannedEdit) : String × Edit := (p.ruleId, p.edit)

namespace Tree

variable {t : Tree} {sets sets' : List EditSet} {r s : EditSet}

/-- A node that the first set touches overlaps one that the second set touches. -/
def Clash (t : Tree) (r s : EditSet) : Prop := ∃ a b, r.Touches a ∧ s.Touches b ∧ t.Overlaps a b

theorem clash_iff_meets : t.Clash r s ↔ t.Meets r.touched s.touched := by
  unfold Clash Meets EditSet.Touches
  simp only [EditSet.mem_touched_iff]
  constructor
  · rintro ⟨a, b, ha, hb, hover⟩
    exact ⟨a, ha, b, hb, hover⟩
  · rintro ⟨a, ha, b, hb, hover⟩
    exact ⟨a, b, ha, hb, hover⟩

theorem Clash.symm (h : t.Clash r s) : t.Clash s r := by
  obtain ⟨a, b, ha, hb, hover⟩ := h
  exact ⟨b, a, hb, ha, overlaps_comm.mp hover⟩

section Places

variable {x y : EditSet × Nat} {split : Split (EditSet × Nat)}
  (hs : t.Swept (fun x : EditSet × Nat => x.1.touched) [] sets.zipIdx split)
include hs

theorem Swept.apart_of_ne (hx : x ∈ split.taken) (hy : y ∈ split.taken) (hne : x ≠ y) :
    ¬ t.Clash x.1 y.1 := by
  have : Std.Symm fun x y : EditSet × Nat => ¬ t.Clash x.1 y.1 := ⟨fun _ _ h hc => h hc.symm⟩
  have hapart : split.taken.Pairwise fun x y => ¬ t.Clash x.1 y.1 :=
    hs.apart.imp fun h hc => h (clash_iff_meets.mp hc)
  exact hapart.forall hx hy hne

theorem Swept.mem_waiting_iff (hperm : (split.taken ++ split.waiting).Perm sets.zipIdx)
    (hx : x ∈ sets.zipIdx) :
    x ∈ split.waiting ↔ ∃ y ∈ split.taken, y.2 < x.2 ∧ t.Clash y.1 x.1 := by
  constructor
  · intro hwaits
    rcases hs.blocked x hwaits with ⟨c, hc, -⟩ | ⟨y, hy, hsub, hmeets⟩
    · exact absurd hc List.not_mem_nil
    · have hlt : y.2 < x.2 := (pairwise_zipIdx_lt sets).forall_sublist hsub
      exact ⟨y, hy, hlt, clash_iff_meets.mpr hmeets⟩
  · rintro ⟨y, hy, hlt, hclash⟩
    rcases List.mem_append.mp (hperm.symm.subset hx) with htaken | hwaits
    · have hne : y ≠ x := by
        rintro rfl
        omega
      exact absurd hclash (hs.apart_of_ne hy htaken hne)
    · exact hwaits

end Places

/-- Selection is greedy: it keeps the order of the list, rejects a set exactly if an earlier accepted one
clashes with it, and so accepts the first set, nothing that clashes, and all that it has accepted before. -/
theorem selectCompatible_greedy (ht : t.WellFormed)
    (hlive : ∀ s ∈ sets, ∀ h, s.Touches h → t.isValid h = true) :
    ∃ split : Split (EditSet × Nat),
      t.selectCompatible sets = .ok (split.map Prod.fst) ∧
      (split.taken ++ split.waiting).Perm sets.zipIdx ∧
      split.taken.Sublist sets.zipIdx ∧ split.waiting.Sublist sets.zipIdx ∧
      (∀ x ∈ sets.zipIdx,
        x ∈ split.waiting ↔ ∃ y ∈ split.taken, y.2 < x.2 ∧ t.Clash y.1 x.1) ∧
      (∀ x ∈ split.taken, ∀ y ∈ split.taken, x ≠ y → ¬ t.Clash x.1 y.1) ∧
      split.taken.head? = sets.zipIdx.head? ∧
      t.selectCompatible (split.taken.map Prod.fst) = .ok ⟨split.taken.map Prod.fst, []⟩ := by
  have hall : ∀ s ∈ sets, t.AllLive s.touched := fun s hs h hh =>
    isValid_iff.mp (hlive s hs h (EditSet.mem_touched_iff.mp hh))
  have hplaces : ∀ x ∈ sets.zipIdx, t.AllLive x.1.touched := fun x hx =>
    hall x.1 (List.fst_mem_of_mem_zipIdx hx)
  have hnone : t.AllLive [] := fun h hh => absurd hh List.not_mem_nil
  obtain ⟨split, hsplit, hswept⟩ : ∃ split,
      t.takeClear (fun x : EditSet × Nat => x.1.touched) [] sets.zipIdx = .ok split ∧
        t.Swept (fun x : EditSet × Nat => x.1.touched) [] sets.zipIdx split :=
    takeClear_spec ht.descending hnone hplaces
  have hperm := perm_takeClear hsplit
  have hselect : t.selectCompatible sets = .ok (split.map Prod.fst) := by
    have hmap : t.takeClear EditSet.touched [] (sets.zipIdx.map Prod.fst) =
        (t.takeClear (EditSet.touched ∘ Prod.fst) [] sets.zipIdx).map (Split.map Prod.fst) :=
      takeClear_map Prod.fst EditSet.touched sets.zipIdx
    rw [List.zipIdx_map_fst] at hmap
    exact hmap.trans (congrArg (Except.map (Split.map Prod.fst)) hsplit)
  have hagain : t.selectCompatible (split.taken.map Prod.fst) =
      .ok ⟨split.taken.map Prod.fst, []⟩ := by
    refine takeClear_of_apart ht.descending (fun s hs => ?_) (List.pairwise_map.mpr hswept.apart)
    obtain ⟨x, hx, rfl⟩ := List.mem_map.mp hs
    exact hplaces x (hperm.subset (List.mem_append_left _ hx))
  exact ⟨split, hselect, hperm, sublist_takeClear hsplit, sublist_waiting_takeClear hsplit,
    fun x hx => hswept.mem_waiting_iff hperm hx, fun x hx y hy hne => hswept.apart_of_ne hx hy hne,
    head?_taken_takeClear hsplit, hagain⟩

/-- A name with brackets around it, and another one behind. -/
def bracketed : Tree :=
  ofTemplate "f" (.ofString "(a) b") ⟨"File", some ⟨0, 5⟩, some [],
    .node "Brackets" (some ⟨0, 3⟩) (some [0]) (.text (.ofString "(")
      (.node "Name" (some ⟨1, 2⟩) (some [0, 0]) (.text (.ofString "a") .nil)
        (.text (.ofString ")") .nil)))
      (.text (.ofString " ")
        (.node "Name" (some ⟨4, 5⟩) (some [1]) (.text (.ofString "b") .nil) .nil))⟩

/-- A new first name, a deletion of the brackets, and a new second name. -/
def bracketedSets : List EditSet :=
  [wordSet 2 [.replace 2 (.leaf "Name" (.ofString "c"))], wordSet 1 [.delete 1],
    wordSet 3 [.insertAfter 3 (.leaf "Name" (.ofString "d")) none, .delete 3]]

theorem selectCompatible_greedy_bracketed : ∃ split : Split (EditSet × Nat),
    bracketed.selectCompatible bracketedSets = .ok (split.map Prod.fst) ∧
    (split.map Prod.fst).waiting = [wordSet 1 [.delete 1]] ∧
    ∀ x ∈ split.waiting, ∃ y ∈ split.taken, y.2 < x.2 ∧ bracketed.Clash y.1 x.1 := by
  have ht : bracketed.WellFormed := wellFormed_ofTemplate ..
  have htouched : ∀ s ∈ bracketedSets, ∀ h ∈ s.touched, bracketed.isValid h = true := by decide
  have hlive : ∀ s ∈ bracketedSets, ∀ h, s.Touches h → bracketed.isValid h = true :=
    fun s hs h hh => htouched s hs h (EditSet.mem_touched_iff.mpr hh)
  obtain ⟨split, hselect, hperm, -, -, hwaits, -⟩ := selectCompatible_greedy ht hlive
  have hwaiting : (split.map Prod.fst).waiting = [wordSet 1 [.delete 1]] := by
    have hrun : bracketed.selectCompatible bracketedSets =
        .ok ⟨[wordSet 2 _, wordSet 3 _], [wordSet 1 _]⟩ := rfl
    rw [Except.ok.inj (hselect.symm.trans hrun)]
  refine ⟨split, hselect, hwaiting, fun x hx => ?_⟩
  exact (hwaits x (hperm.subset (List.mem_append_right _ hx))).mp hx

/-! ## The order of selected sets -/

section Turns

/-- An edit next to the rule that asked for it has its turn before another one: its node lies deeper, or
as deep and does not start earlier. -/
def turnLe (t : Tree) (x y : String × Edit) : Bool :=
  decide ((t.ancestors y.2.touched).length < (t.ancestors x.2.touched).length ∨
    (t.ancestors x.2.touched).length = (t.ancestors y.2.touched).length ∧
      (t.spanOf y.2.touched).start ≤ (t.spanOf x.2.touched).start)

theorem turnLe_trans (x y z : String × Edit) (hxy : t.turnLe x y = true) (hyz : t.turnLe y z = true) :
    t.turnLe x z = true := by
  simp only [turnLe, decide_eq_true_eq] at hxy hyz ⊢
  lia

theorem turnLe_total (x y : String × Edit) : (t.turnLe x y || t.turnLe y x) = true := by
  simp only [turnLe, Bool.or_eq_true, decide_eq_true_eq]
  lia

theorem le_placement (x y : (String × Edit) × Nat) :
    (t.placement x.2 x.1).le (t.placement y.2 y.1) = List.zipIdxLE t.turnLe x y := by
  rw [Bool.eq_iff_iff, PlannedEdit.le_iff]
  simp only [placement, Text.location, List.zipIdxLE, turnLe, decide_eq_true_eq]
  split
  · split
    · simp only [decide_eq_true_eq]
      lia
    · lia
  · lia

/-- The plan without the places is the edits of the sets, sorted by their turns. -/
theorem map_plan (t : Tree) (sets : List EditSet) :
    (t.plan sets).map PlannedEdit.named = (sets.flatMap EditSet.named).mergeSort t.turnLe := by
  have hsort := List.map_mergeSort (r := List.zipIdxLE t.turnLe) (s := PlannedEdit.le)
    (f := fun x => t.placement x.2 x.1)
    (l := (sets.flatMap EditSet.named).zipIdx) fun x _ y _ => (le_placement x y).symm
  change (((sets.flatMap EditSet.named).zipIdx.map fun x => t.placement x.2 x.1).mergeSort
    PlannedEdit.le).map PlannedEdit.named = _
  rw [← hsort, List.map_map]
  exact List.mergeSort_zipIdx

theorem applyPlanned_congr {ps qs : List PlannedEdit}
    (h : ps.map PlannedEdit.named = qs.map PlannedEdit.named) :
    t.applyPlanned ps = t.applyPlanned qs := by
  induction ps generalizing t qs with
  | nil =>
    obtain rfl := List.map_eq_nil_iff.mp h.symm
    rfl
  | cons p ps ih =>
    obtain ⟨q, qs, rfl, hhead, hrest⟩ := List.map_eq_cons_iff.mp h.symm
    obtain ⟨hrule, hedit⟩ := Prod.mk.inj hhead
    simp only [applyPlanned, hrule, hedit]
    cases p.edit.apply t with
    | error _ => rfl
    | ok next => exact ih hrest.symm

end Turns

section Accepted

variable {a b : Handle}

theorem of_overlap_eq_false (h : t.overlap a b = .ok false) :
    (∃ n, t.node? a = some n) ∧ (∃ n, t.node? b = some n) ∧ a ≠ b := by
  simp only [overlap, bind, Except.bind] at h
  split at h
  · cases h
  next hne =>
  split at h
  · cases h
  next c hc =>
  obtain ⟨ha, hb⟩ := live_of_isAncestor hc
  exact ⟨ha, hb, hne⟩

variable (haccepted : t.selectCompatible sets = .ok ⟨sets, []⟩)
include haccepted

theorem live_of_accepted (htwo : 2 ≤ sets.length) : ∀ s ∈ sets, t.AllLive s.touched := by
  have hpair := (pairwise_of_takeClear haccepted).2
  -- Every set touches the node that it flags, so each pair of sets has been compared.
  match sets, htwo with
  | r :: u :: rest, _ =>
    obtain ⟨hr, -⟩ := List.pairwise_cons.mp hpair
    intro s hs h hh
    rcases List.mem_cons.mp hs with rfl | hs
    · exact (of_overlap_eq_false (hr u List.mem_cons_self h hh _ u.node_mem_touched)).1
    · exact (of_overlap_eq_false (hr s hs _ r.node_mem_touched h hh)).2.1

/-- Edits that tie are edits of one set. -/
theorem tied_of_accepted (ht : t.Arranged) (x : String × Edit) : sets.Pairwise fun r s =>
    r.named.filter (Tied t.turnLe x) = [] ∨ s.named.filter (Tied t.turnLe x) = [] := by
  refine (pairwise_of_takeClear haccepted).2.imp fun {r s} hclear => ?_
  by_contra hboth
  rw [not_or] at hboth
  obtain ⟨y, hy⟩ := List.exists_mem_of_ne_nil _ hboth.1
  obtain ⟨z, hz⟩ := List.exists_mem_of_ne_nil _ hboth.2
  obtain ⟨hy, hxy⟩ := List.mem_filter.mp hy
  obtain ⟨hz, hxz⟩ := List.mem_filter.mp hz
  obtain ⟨d, hd, rfl⟩ := List.mem_map.mp hy
  obtain ⟨e, he, rfl⟩ := List.mem_map.mp hz
  obtain ⟨hdlive, helive, hne⟩ := of_overlap_eq_false
    (hclear _ (EditSet.mem_touched_iff.mpr (.inr ⟨d, hd, rfl⟩)) _
      (EditSet.mem_touched_iff.mpr (.inr ⟨e, he, rfl⟩)))
  simp only [tied_iff, turnLe, decide_eq_true_eq] at hxy hxz
  exact hne (ht.eq_of_start hdlive helive (by lia) (by lia))

end Accepted

/-- A batch of sets that are all accepted comes out the same in any order. -/
theorem applyEditSets_perm (ht : t.Arranged) (haccepted : t.selectCompatible sets = .ok ⟨sets, []⟩)
    (hperm : sets'.Perm sets) : t.applyEditSets sets' = t.applyEditSets sets := by
  -- A single set may have its edits on nodes that are gone, but it has one order only.
  rcases Nat.lt_or_ge sets.length 2 with hfew | htwo
  · match sets, hfew with
    | [], _ => rw [hperm.eq_nil]
    | [s], _ => rw [List.perm_singleton.mp hperm]
  · have hlive := live_of_accepted haccepted htwo
    have hedits : ∀ s ∈ sets, ∀ e ∈ s.edits, ∃ n, t.node? e.touched = some n := fun s hs e he =>
      hlive s hs _ (EditSet.mem_touched_iff.mpr (.inr ⟨e, he, rfl⟩))
    have hplan := planEdits_eq hedits
    have hplan' := planEdits_eq fun s hs => hedits s (hperm.subset hs)
    have hties : ∀ x, (sets'.flatMap EditSet.named).filter (Tied t.turnLe x) =
        (sets.flatMap EditSet.named).filter (Tied t.turnLe x) := by
      intro x
      rw [List.filter_flatMap, List.filter_flatMap]
      exact (flatMap_eq_of_perm hperm.symm (tied_of_accepted haccepted ht x)).symm
    have hsame : (t.plan sets').map PlannedEdit.named = (t.plan sets).map PlannedEdit.named := by
      rw [map_plan, map_plan]
      exact mergeSort_eq_of_tied turnLe_trans turnLe_total hties
    rw [applyEditSets, applyEditSets, hplan, hplan']
    exact applyPlanned_congr hsame

theorem applyEditSets_perm_bracketed :
    bracketed.applyEditSets [wordSet 3 [.insertAfter 3 (.leaf "Name" (.ofString "d")) none, .delete 3],
      wordSet 1 [.delete 1]] =
    bracketed.applyEditSets [wordSet 1 [.delete 1],
      wordSet 3 [.insertAfter 3 (.leaf "Name" (.ofString "d")) none, .delete 3]] := by
  have hinner : Pieces.Tiles (.ofString "(a) b") 0 (.text (.ofString "(")
      (.node "Name" (some ⟨1, 2⟩) (some [0, 0]) (.text (.ofString "a") .nil)
        (.text (.ofString ")") .nil))) 3 :=
    ⟨by decide, 2, rfl, by decide, ⟨by decide, rfl⟩, by decide, rfl⟩
  have ht : bracketed.Arranged :=
    arranged_ofTemplate "f" rfl
      ⟨3, rfl, by decide, hinner, by decide, 5, rfl, by decide, ⟨by decide, rfl⟩, rfl⟩
  exact applyEditSets_perm ht rfl (List.Perm.swap ..)

end Tree
end LintRepair
