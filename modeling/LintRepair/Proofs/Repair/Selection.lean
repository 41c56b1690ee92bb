import LintRepair.Proofs.Tree.Enclosing
import Mathlib.Data.List.Pairwise
import Mathlib.Data.List.Perm.Basic

/-!
# Taking what is clear

What one sweep over violations or edit sets takes and why the rest waits. A sweep that starts
without claims always takes something, and a violation that is taken has no other one before it on
its node or inside.
-/
namespace LintRepair

theorem unitsLe_trans {a b c : String} (hab : unitsLe a b = true) (hbc : unitsLe b c = true) :
    unitsLe a c = true := by
  simp only [unitsLe, decide_eq_true_eq] at hab hbc ⊢
  exact List.le_trans hab hbc

theorem unitsLe_total (a b : String) : unitsLe a b = true ∨ unitsLe b a = true := by
  simp only [unitsLe, decide_eq_true_eq]
  exact List.le_total _ _

theorem unitsLe_refl (a : String) : unitsLe a a = true := (unitsLe_total a a).elim id id

namespace Candidate

theorem le_iff {a b : Candidate} : a.le b = true ↔ b.depth < a.depth ∨ a.depth = b.depth ∧
    (a.violation.location.start < b.violation.location.start ∨
      a.violation.location.start = b.violation.location.start ∧
        unitsLe a.violation.ruleId b.violation.ruleId = true) := by
  unfold le
  split
  · simp only [decide_eq_true_eq]; lia
  · split
    · simp only [decide_eq_true_eq]; lia
    · have : ¬ b.depth < a.depth := by lia
      simp_all

theorem le_trans {a b c : Candidate} (hab : a.le b = true) (hbc : b.le c = true) :
    a.le c = true := by
  rw [le_iff] at hab hbc ⊢
  have hid := fun h h' => unitsLe_trans (a := a.violation.ruleId) (b := b.violation.ruleId)
    (c := c.violation.ruleId) h h'
  lia

theorem le_total (a b : Candidate) : (a.le b || b.le a) = true := by
  rw [Bool.or_eq_true, le_iff, le_iff]
  have hid := unitsLe_total a.violation.ruleId b.violation.ruleId
  lia

end Candidate

theorem anyM_spec {α : Type} {f : α → Except Fault Bool} {P : α → Prop} {xs : List α}
    (hf : ∀ x ∈ xs, ∃ c, f x = .ok c ∧ (c = true ↔ P x)) :
    ∃ c, xs.anyM f = .ok c ∧ (c = true ↔ ∃ x ∈ xs, P x) := by
  induction xs with
  | nil => exact ⟨false, rfl, by simp⟩
  | cons x rest ih =>
    obtain ⟨c, hc, hcx⟩ := hf x List.mem_cons_self
    simp only [List.anyM, hc, bind, Except.bind]
    cases c with
    | true => exact ⟨true, rfl, by simp [hcx.mp rfl]⟩
    | false =>
      obtain ⟨d, hd, hdx⟩ := ih fun y hy => hf y (List.mem_cons_of_mem _ hy)
      have hx : ¬ P x := fun h => Bool.false_ne_true (hcx.mpr h)
      exact ⟨d, hd, by simp [hdx, hx]⟩

namespace Tree

variable {t : Tree} {claimed nodes : List Handle}

def AllLive (t : Tree) (hs : List Handle) : Prop := ∀ h ∈ hs, ∃ n, t.node? h = some n

/-- A node of the first list overlaps a node of the second. -/
def Meets (t : Tree) (xs ys : List Handle) : Prop := ∃ x ∈ xs, ∃ y ∈ ys, t.Overlaps x y

theorem claimedBy_spec (ht : t.Descending) (hclaimed : t.AllLive claimed)
    (hnodes : t.AllLive nodes) :
    ∃ c, t.claimedBy claimed nodes = .ok c ∧ (c = true ↔ t.Meets claimed nodes) := by
  have hnode : ∀ n ∈ nodes, ∃ c, (claimed.anyM fun owner => t.overlap owner n) = .ok c ∧
      (c = true ↔ ∃ o ∈ claimed, t.Overlaps o n) := by
    intro n hn
    obtain ⟨m, hm⟩ := hnodes n hn
    refine anyM_spec fun o ho => ?_
    obtain ⟨k, hk⟩ := hclaimed o ho
    exact overlap_spec ht hk hm
  obtain ⟨c, hc, hiff⟩ := anyM_spec hnode
  refine ⟨c, hc, hiff.trans ?_⟩
  constructor
  · rintro ⟨n, hn, o, ho, h⟩
    exact ⟨o, ho, n, hn, h⟩
  · rintro ⟨o, ho, n, hn, h⟩
    exact ⟨n, hn, o, ho, h⟩

section Sweep

variable {α : Type} {touched : α → List Handle} {xs : List α} {split : Split α}

theorem takeClear_cases {x : α} {rest : List α}
    (h : t.takeClear touched claimed (x :: rest) = .ok split) :
    (t.claimedBy claimed (touched x) = .ok true ∧ ∃ s, t.takeClear touched claimed rest = .ok s ∧
      split = { s with waiting := x :: s.waiting }) ∨
    (t.claimedBy claimed (touched x) = .ok false ∧
      ∃ s, t.takeClear touched (claimed ++ touched x) rest = .ok s ∧
        split = { s with taken := x :: s.taken }) := by
  simp only [takeClear, bind, Except.bind] at h
  split at h
  · cases h
  · next c hc =>
    cases c with
    | true =>
      simp only [if_true] at h
      split at h
      · cases h
      · next s hs => exact .inl ⟨hc, s, hs, (Except.ok.inj h).symm⟩
    | false =>
      simp only [Bool.false_eq_true, if_false] at h
      split at h
      · cases h
      · next s hs => exact .inr ⟨hc, s, hs, (Except.ok.inj h).symm⟩

theorem perm_takeClear (h : t.takeClear touched claimed xs = .ok split) :
    (split.taken ++ split.waiting).Perm xs := by
  induction xs generalizing claimed split with
  | nil =>
    obtain rfl : ⟨[], []⟩ = split := Except.ok.inj h
    exact .nil
  | cons x rest ih =>
    rcases takeClear_cases h with ⟨-, s, hs, rfl⟩ | ⟨-, s, hs, rfl⟩
    · exact List.perm_middle.trans ((ih hs).cons x)
    · exact (ih hs).cons x

theorem sublist_takeClear (h : t.takeClear touched claimed xs = .ok split) :
    split.taken.Sublist xs := by
  induction xs generalizing claimed split with
  | nil =>
    obtain rfl : ⟨[], []⟩ = split := Except.ok.inj h
    exact .slnil
  | cons x rest ih =>
    rcases takeClear_cases h with ⟨-, s, hs, rfl⟩ | ⟨-, s, hs, rfl⟩
    · exact (ih hs).cons x
    · exact (ih hs).cons_cons x

theorem sublist_waiting_takeClear (h : t.takeClear touched claimed xs = .ok split) :
    split.waiting.Sublist xs := by
  induction xs generalizing claimed split with
  | nil =>
    obtain rfl : ⟨[], []⟩ = split := Except.ok.inj h
    exact .slnil
  | cons x rest ih =>
    rcases takeClear_cases h with ⟨-, s, hs, rfl⟩ | ⟨-, s, hs, rfl⟩
    · exact (ih hs).cons_cons x
    · exact (ih hs).cons x

theorem head?_taken_takeClear (h : t.takeClear touched [] xs = .ok split) :
    split.taken.head? = xs.head? := by
  cases xs with
  | nil =>
    obtain rfl : ⟨[], []⟩ = split := Except.ok.inj h
    rfl
  | cons x rest =>
    have hfree : t.claimedBy [] (touched x) = .ok false := by
      generalize touched x = nodes
      induction nodes with
      | nil => rfl
      | cons n nodes ih => exact ih
    rcases takeClear_cases h with ⟨hc, -⟩ | ⟨-, s, -, rfl⟩
    · rw [hfree] at hc
      cases hc
    · rfl

theorem takeClear_ne_nil (h : t.takeClear touched [] xs = .ok split) (hne : xs ≠ []) :
    split.taken ≠ [] := by
  have hhead := head?_taken_takeClear h
  intro hnil
  rw [hnil] at hhead
  exact hne (List.head?_eq_none_iff.mp hhead.symm)

/-- Why each member of a list was taken or waits. -/
structure Swept (t : Tree) (touched : α → List Handle) (claimed : List Handle) (xs : List α)
    (split : Split α) : Prop where
  clear : ∀ x ∈ split.taken, ¬ t.Meets claimed (touched x)
  apart : split.taken.Pairwise fun x y => ¬ t.Meets (touched x) (touched y)
  blocked : ∀ y ∈ split.waiting, t.Meets claimed (touched y) ∨
    ∃ x ∈ split.taken, [x, y].Sublist xs ∧ t.Meets (touched x) (touched y)

theorem Swept.wait {x : α} {rest : List α} (h : t.Swept touched claimed rest split)
    (hx : t.Meets claimed (touched x)) :
    t.Swept touched claimed (x :: rest) { split with waiting := x :: split.waiting } := by
  refine ⟨h.clear, h.apart, ?_⟩
  intro y hy
  rcases List.mem_cons.mp hy with rfl | hy
  · exact .inl hx
  · refine (h.blocked y hy).imp_right ?_
    rintro ⟨z, hz, hsub, hm⟩
    exact ⟨z, hz, hsub.cons _, hm⟩

theorem Swept.take {x : α} {rest : List α}
    (h : t.Swept touched (claimed ++ touched x) rest split) (hrest : split.waiting ⊆ rest)
    (hx : ¬ t.Meets claimed (touched x)) :
    t.Swept touched claimed (x :: rest) { split with taken := x :: split.taken } := by
  have happend : ∀ ys, t.Meets (claimed ++ touched x) ys ↔
      t.Meets claimed ys ∨ t.Meets (touched x) ys := by
    simp only [Meets, List.mem_append, or_and_right, exists_or, implies_true]
  refine ⟨?_, List.pairwise_cons.mpr ⟨fun y hy hm => ?_, h.apart⟩, ?_⟩
  · intro y hy
    rcases List.mem_cons.mp hy with rfl | hy
    · exact hx
    · exact fun hm => h.clear y hy ((happend _).mpr (.inl hm))
  · exact h.clear y hy ((happend _).mpr (.inr hm))
  · intro y hy
    rcases h.blocked y hy with hm | ⟨z, hz, hsub, hm⟩
    · refine ((happend _).mp hm).imp_right fun hm => ⟨x, List.mem_cons_self, ?_, hm⟩
      exact (List.singleton_sublist.mpr (hrest hy)).cons_cons x
    · exact .inr ⟨z, List.mem_cons_of_mem _ hz, hsub.cons _, hm⟩

theorem takeClear_spec (ht : t.Descending) (hclaimed : t.AllLive claimed)
    (htouched : ∀ x ∈ xs, t.AllLive (touched x)) :
    ∃ split, t.takeClear touched claimed xs = .ok split ∧ t.Swept touched claimed xs split := by
  induction xs generalizing claimed with
  | nil => exact ⟨⟨[], []⟩, rfl, by simp, .nil, by simp⟩
  | cons x rest ih =>
    have hx := htouched x List.mem_cons_self
    have hrest : ∀ y ∈ rest, t.AllLive (touched y) :=
      fun y hy => htouched y (List.mem_cons_of_mem _ hy)
    obtain ⟨c, hc, hmeets⟩ := claimedBy_spec ht hclaimed hx
    simp only [takeClear, hc, bind, Except.bind]
    cases c with
    | true =>
      obtain ⟨s, hs, hswept⟩ := ih hclaimed hrest
      exact ⟨_, by rw [if_pos rfl, hs]; rfl, hswept.wait (hmeets.mp rfl)⟩
    | false =>
      have hmore : t.AllLive (claimed ++ touched x) :=
        fun h hh => (List.mem_append.mp hh).elim (hclaimed h) (hx h)
      obtain ⟨s, hs, hswept⟩ := ih hmore hrest
      refine ⟨_, by rw [if_neg Bool.false_ne_true, hs]; rfl, hswept.take ?_ ?_⟩
      · exact fun y hy => (perm_takeClear hs).subset (List.mem_append_right _ hy)
      · exact fun h => Bool.false_ne_true (hmeets.mpr h)

theorem takeClear_of_apart (ht : t.Descending) (htouched : ∀ x ∈ xs, t.AllLive (touched x))
    (hapart : xs.Pairwise fun x y => ¬ t.Meets (touched x) (touched y)) :
    t.takeClear touched [] xs = .ok ⟨xs, []⟩ := by
  obtain ⟨split, hsplit, hswept⟩ := takeClear_spec ht (fun h hh => absurd hh List.not_mem_nil) htouched
  have hwaiting : split.waiting = [] := by
    refine List.eq_nil_iff_forall_not_mem.mpr fun y hy => ?_
    rcases hswept.blocked y hy with ⟨c, hc, -⟩ | ⟨x, -, hsub, hmeets⟩
    · exact absurd hc List.not_mem_nil
    · exact hapart.forall_sublist hsub hmeets
  have hlength := (perm_takeClear hsplit).length_eq
  rw [hwaiting, List.append_nil] at hlength
  have htaken := (sublist_takeClear hsplit).eq_of_length hlength
  rw [hsplit]
  exact congrArg Except.ok (congrArg₂ Split.mk htaken hwaiting)

end Sweep

section Violations

variable {vs : List Violation} {v w : Violation} {split : Split Violation}

/-- The tree has the node of every violation. -/
def Holds (t : Tree) (vs : List Violation) : Prop := ∀ v ∈ vs, ∃ n, t.node? v.node = some n

theorem Holds.mono {ws : List Violation} (h : t.Holds vs) (hws : ws ⊆ vs) : t.Holds ws :=
  fun v hv => h v (hws hv)

/-- Violations of live nodes that agree on where their nodes start. -/
structure Consistent (t : Tree) (vs : List Violation) : Prop where
  live : ∀ v ∈ vs, ∃ n, t.node? v.node = some n
  start_eq : ∀ v ∈ vs, ∀ w ∈ vs, w.node = v.node → w.location.start = v.location.start

theorem Consistent.mono {ws : List Violation} (h : t.Consistent vs) (hws : ws ⊆ vs) :
    t.Consistent ws where
  live v hv := h.live v (hws hv)
  start_eq v hv w hw := h.start_eq v (hws hv) w (hws hw)

theorem consistent_of_location (h : ∀ v ∈ vs, t.location v.node = .ok v.location) :
    t.Consistent vs where
  live v hv := by
    cases hn : t.node? v.node with
    | none =>
      have hloc := h v hv
      rw [location, get_of_node?_eq_none hn] at hloc
      cases hloc
    | some n => exact ⟨n, rfl⟩
  start_eq v hv w hw hnode := by
    have hloc := h w hw
    rw [hnode, h v hv] at hloc
    rw [Except.ok.inj hloc]

/-- The first violation flags a node strictly inside that of the second, or the same node under a
smaller rule id. -/
def Precedes (t : Tree) (w v : Violation) : Prop :=
  t.Encloses v.node w.node ∨ w.node = v.node ∧ unitsLe v.ruleId w.ruleId = false

theorem Precedes.covers (h : t.Precedes w v) : t.Covers v.node w.node :=
  h.elim .inr fun h => .inl h.1

theorem Precedes.ne (ht : t.Descending) (h : t.Precedes w v) : w ≠ v := by
  rintro rfl
  rcases h with h | ⟨-, h⟩
  · exact ht.not_encloses_of_covers (t.covers_refl _) h
  · rw [unitsLe_refl] at h
    cases h

/-- The depth of a violation's node, beside the violation. -/
def candidate (t : Tree) (v : Violation) : Candidate := ⟨v, (t.ancestors v.node).length⟩

theorem candidates_eq (hvs : t.Holds vs) : t.candidates vs = .ok (vs.map t.candidate) := by
  induction vs with
  | nil => rfl
  | cons v rest ih =>
    obtain ⟨n, hn⟩ := hvs v List.mem_cons_self
    have hrest := ih (hvs.mono (List.subset_cons_self v rest))
    simp only [candidates, bind, Except.bind, pure, Except.pure] at hrest
    simp only [candidates, List.mapM_cons, depth_eq hn, hrest, bind, Except.bind, pure, Except.pure]
    rfl

theorem map_violation_candidates {cs : List Candidate} (h : t.candidates vs = .ok cs) :
    cs.map (·.violation) = vs := by
  induction vs generalizing cs with
  | nil =>
    obtain rfl : [] = cs := Except.ok.inj h
    rfl
  | cons v rest ih =>
    simp only [candidates, List.mapM_cons, bind, Except.bind, pure, Except.pure] at h ih
    split at h
    · cases h
    · next c hc =>
      split at hc
      · cases hc
      · split at h
        · cases h
        · next ds hds =>
          obtain rfl := Except.ok.inj hc
          obtain rfl := Except.ok.inj h
          rw [List.map_cons, ih hds]

theorem perm_inRepairOrder {order : List Violation} (h : t.inRepairOrder vs = .ok order) :
    order.Perm vs := by
  simp only [inRepairOrder, bind, Except.bind, pure, Except.pure] at h
  split at h
  · cases h
  · next cs hcs =>
    obtain rfl := Except.ok.inj h
    have hperm := (List.mergeSort_perm cs Candidate.le).map (·.violation)
    rwa [map_violation_candidates hcs] at hperm

theorem inRepairOrder_of_pairwise (hvs : t.Consistent vs)
    (hord : (vs.map t.candidate).Pairwise fun a b => a.le b = true) :
    t.inRepairOrder vs = .ok vs := by
  rw [inRepairOrder, candidates_eq hvs.live]
  simp only [bind, Except.bind, pure, Except.pure, List.mergeSort_of_pairwise hord, List.map_map,
    Function.comp_def, candidate, List.map_id']

theorem perm_resolveConflicts (h : t.resolveConflicts vs claimed = .ok split) :
    (split.taken ++ split.waiting).Perm vs := by
  simp only [resolveConflicts, bind, Except.bind] at h
  split at h
  · cases h
  · next order ho => exact (perm_takeClear h).trans (perm_inRepairOrder ho)

theorem resolveConflicts_ne_nil (h : t.resolveConflicts vs [] = .ok split) (hne : vs ≠ []) :
    split.taken ≠ [] := by
  simp only [resolveConflicts, bind, Except.bind] at h
  split at h
  · cases h
  · next order ho =>
    refine takeClear_ne_nil h fun hnil => hne ?_
    rw [hnil] at ho
    exact (perm_inRepairOrder ho).nil_eq.symm

/-- Violations are resolved by one sweep in repair order, if their nodes are there. -/
theorem exists_swept (ht : t.Descending) (hclaimed : t.AllLive claimed) (hvs : t.Holds vs) :
    ∃ order split, t.inRepairOrder vs = .ok order ∧ t.resolveConflicts vs claimed = .ok split ∧
      t.Swept (fun v => [v.node]) claimed order split := by
  obtain ⟨order, ho⟩ : ∃ order, t.inRepairOrder vs = .ok order :=
    ⟨_, by rw [inRepairOrder, candidates_eq hvs]; rfl⟩
  have hlive : ∀ v ∈ order, t.AllLive [v.node] := by
    intro v hv h hh
    rw [List.mem_singleton.mp hh]
    exact hvs v ((perm_inRepairOrder ho).subset hv)
  obtain ⟨split, hsplit, hswept⟩ := takeClear_spec ht hclaimed hlive
  exact ⟨order, split, ho, by rw [resolveConflicts, ho]; exact hsplit, hswept⟩

theorem holds_of_candidates {cs : List Candidate} (h : t.candidates vs = .ok cs) : t.Holds vs := by
  induction vs generalizing cs with
  | nil => exact fun v hv => absurd hv List.not_mem_nil
  | cons v rest ih =>
    simp only [candidates, List.mapM_cons, bind, Except.bind, pure, Except.pure] at h ih
    split at h
    · cases h
    next c hc =>
    split at h
    · cases h
    next ds hds =>
    refine List.forall_mem_cons.mpr ⟨?_, ih hds⟩
    cases hn : t.node? v.node with
    | some n => exact ⟨n, rfl⟩
    | none =>
      rw [depth, get_of_node?_eq_none hn] at hc
      cases hc

theorem holds_of_resolveConflicts (h : t.resolveConflicts vs claimed = .ok split) : t.Holds vs := by
  cases hcs : t.candidates vs with
  | ok cs => exact holds_of_candidates hcs
  | error f =>
    rw [resolveConflicts, inRepairOrder, hcs] at h
    cases h

/-- Resolved violations lie apart and clear of what is claimed, whatever else they say. -/
theorem apart_of_resolveConflicts (ht : t.Descending) (hclaimed : t.AllLive claimed)
    (h : t.resolveConflicts vs claimed = .ok split) :
    (∀ v ∈ split.taken, ∀ c ∈ claimed, ¬ t.Overlaps c v.node) ∧
      split.taken.Pairwise fun v w => ¬ t.Overlaps v.node w.node := by
  obtain ⟨order, split', -, hsplit, hswept⟩ :=
    exists_swept ht hclaimed (holds_of_resolveConflicts h)
  obtain rfl := Except.ok.inj (h.symm.trans hsplit)
  constructor
  · exact fun v hv c hc h => hswept.clear v hv ⟨c, hc, v.node, List.mem_cons_self, h⟩
  · exact hswept.apart.imp fun h ho => h ⟨_, List.mem_cons_self, _, List.mem_cons_self, ho⟩

/-- Why violations are accepted or deferred. -/
structure Resolved (t : Tree) (claimed : List Handle) (vs : List Violation)
    (split : Split Violation) : Prop where
  perm : (split.taken ++ split.waiting).Perm vs
  clear : ∀ v ∈ split.taken, ∀ c ∈ claimed, ¬ t.Overlaps c v.node
  apart : split.taken.Pairwise fun v w => ¬ t.Overlaps v.node w.node
  blocked : ∀ w ∈ split.waiting, (∃ c ∈ claimed, t.Overlaps c w.node) ∨
    ∃ v ∈ split.taken, t.Overlaps v.node w.node ∧ ¬ t.Precedes w v

namespace Resolved

variable (hr : t.Resolved claimed vs split)
include hr

theorem apart_of_ne (hv : v ∈ split.taken) (hw : w ∈ split.taken) (hne : v ≠ w) :
    ¬ t.Overlaps v.node w.node := by
  have : Std.Symm fun v w : Violation => ¬ t.Overlaps v.node w.node :=
    ⟨fun _ _ h hs => h (overlaps_comm.mp hs)⟩
  exact hr.apart.forall hv hw hne

theorem not_precedes (ht : t.Descending) (hv : v ∈ split.taken) (hw : w ∈ vs) :
    ¬ t.Precedes w v := by
  intro hpre
  rcases List.mem_append.mp (hr.perm.symm.subset hw) with hw | hw
  · exact hr.apart_of_ne hv hw (hpre.ne ht).symm (.inl hpre.covers)
  · rcases hr.blocked w hw with ⟨c, hc, ho⟩ | ⟨u, hu, ho, hnot⟩
    · exact hr.clear v hv c hc (ho.widen hpre.covers)
    · by_cases huv : u = v
      · exact hnot (huv ▸ hpre)
      · exact hr.apart_of_ne hu hv huv (ho.widen hpre.covers)

end Resolved
end Violations
end Tree
end LintRepair
