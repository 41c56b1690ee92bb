import LintRepair.Proofs.Tree.Slots
import LintRepair.Repair.Overlap
import Mathlib.Logic.Relation

/-!
# Enclosing nodes

The order that parent handles put on a tree, and its agreement with `ancestors`, `depth`,
`isAncestor` and `overlap`. All of it needs one fact of the tree only: parents have smaller handles.
-/
namespace LintRepair.Tree

variable {t : Tree} {a b h p q x : Handle}

def IsParent (t : Tree) (p h : Handle) : Prop := ∃ n, t.node? h = some n ∧ n.parent = some p

/-- The second node lies strictly inside the first. -/
def Encloses (t : Tree) (outer inner : Handle) : Prop := Relation.TransGen t.IsParent outer inner

/-- The second node is the first or lies inside it. -/
def Covers (t : Tree) (outer inner : Handle) : Prop := inner = outer ∨ t.Encloses outer inner

def Overlaps (t : Tree) (a b : Handle) : Prop := t.Covers a b ∨ t.Covers b a

/-- Every parent comes before its children. -/
def Descending (t : Tree) : Prop := ∀ p h, t.IsParent p h → 0 ≤ p ∧ p < h

theorem IsParent.unique (hp : t.IsParent p h) (hq : t.IsParent q h) : p = q := by
  obtain ⟨n, hn, hnp⟩ := hp
  obtain ⟨m, hm, hmq⟩ := hq
  rw [hn] at hm
  cases hm
  rw [hnp] at hmq
  exact Option.some.inj hmq

theorem IsParent.encloses (hp : t.IsParent p h) : t.Encloses p h := .single hp

theorem IsParent.inner_live (hp : t.IsParent p h) : ∃ n, t.node? h = some n :=
  hp.imp fun _ hn => hn.1

theorem Encloses.trans (hab : t.Encloses a b) (hbx : t.Encloses b x) : t.Encloses a x :=
  Relation.TransGen.trans hab hbx

theorem Encloses.inner_live (ha : t.Encloses a h) : ∃ n, t.node? h = some n := by
  cases ha with
  | single hp => exact hp.inner_live
  | tail _ hp => exact hp.inner_live

theorem covers_refl (t : Tree) (h : Handle) : t.Covers h h := .inl rfl

theorem Encloses.covers (ha : t.Encloses a h) : t.Covers a h := .inr ha

theorem Covers.inner_live {n : Node} (hx : t.Covers h x) (hn : t.node? h = some n) :
    ∃ m, t.node? x = some m := by
  rcases hx with rfl | hx
  · exact ⟨n, hn⟩
  · exact hx.inner_live

theorem Covers.trans (hab : t.Covers a b) (hbx : t.Covers b x) : t.Covers a x := by
  rcases hab with rfl | hab
  · exact hbx
  · rcases hbx with rfl | hbx
    · exact .inr hab
    · exact .inr (hab.trans hbx)

theorem Covers.encloses_of_isParent (ha : t.Covers a p) (hp : t.IsParent p h) : t.Encloses a h := by
  rcases ha with rfl | ha
  · exact hp.encloses
  · exact Relation.TransGen.tail ha hp

/-- Enclosing carries over to a tree with the same links, on nodes of a kind that goes outwards. -/
theorem Encloses.transfer {t' : Tree} {P : Handle → Prop} (hx : t.Encloses a x)
    (hup : ∀ p h, t.IsParent p h → P h → P p)
    (hlink : ∀ p h, t.IsParent p h → P h → t'.IsParent p h) (hP : P x) : t'.Encloses a x := by
  induction hx with
  | single hp => exact (hlink _ _ hp hP).encloses
  | tail _ hp ih => exact (ih (hup _ _ hp hP)).trans (hlink _ _ hp hP).encloses

theorem encloses_iff_covers_parent (hp : t.IsParent p h) : t.Encloses a h ↔ t.Covers a p := by
  refine ⟨fun ha => ?_, fun ha => ha.encloses_of_isParent hp⟩
  cases ha with
  | single hq => exact .inl (hp.unique hq)
  | tail ha hq => rw [hp.unique hq]; exact .inr ha

theorem Covers.overlaps (ha : t.Covers a x) (hb : t.Covers b x) : t.Overlaps a b := by
  rcases ha with rfl | ha
  · exact .inr hb
  · rcases hb with rfl | hb
    · exact .inl (.inr ha)
    · have key : ∀ y, t.Encloses b y → t.Encloses a y → t.Overlaps a b := by
        intro y hy
        induction hy with
        | single hp => exact fun hay => .inl ((encloses_iff_covers_parent hp).mp hay)
        | tail hy hp ih =>
          intro hay
          rcases (encloses_iff_covers_parent hp).mp hay with rfl | hay
          · exact .inr (.inr hy)
          · exact ih hay
      exact key x hb ha

theorem overlaps_comm : t.Overlaps a b ↔ t.Overlaps b a := or_comm

theorem Overlaps.widen (hx : t.Overlaps x b) (hab : t.Covers a b) : t.Overlaps x a := by
  rcases hx with hx | hx
  · exact hx.overlaps hab
  · exact .inr (hab.trans hx)

namespace Descending

theorem wellFounded_outwards (ht : t.Descending) : WellFounded t.IsParent := by
  refine Subrelation.wf (fun hp => ?_) (measure Int.toNat).wf
  have := ht _ _ hp
  show Int.toNat _ < Int.toNat _
  lia

theorem wellFounded_inwards (ht : t.Descending) : WellFounded fun c p => t.IsParent p c := by
  refine Subrelation.wf (fun hp => ?_) (measure fun h => (t.nextHandle - h).toNat).wf
  have hlt := ht _ _ hp
  obtain ⟨n, hn, -⟩ := hp
  have := lt_nextHandle_of_node? hn
  show Int.toNat _ < Int.toNat _
  lia

theorem encloses_lt (ht : t.Descending) (ha : t.Encloses a h) : 0 ≤ a ∧ a < h := by
  induction ha with
  | single hp => exact ht _ _ hp
  | tail _ hp ih =>
    have := ht _ _ hp
    lia

theorem covers_le (ht : t.Descending) (ha : t.Covers a h) : a ≤ h := by
  rcases ha with rfl | ha
  · lia
  · have := ht.encloses_lt ha
    lia

theorem not_encloses_of_covers (ht : t.Descending) (ha : t.Covers a h) : ¬ t.Encloses h a := by
  intro hh
  have := ht.encloses_lt hh
  have := ht.covers_le ha
  lia

private theorem chain_none (n : Nat) : t.chain n none = [] := by cases n <;> rfl

private theorem chain_congr (ht : t.Descending) (n m : Nat) (h : Handle) (hn : h.toNat < n)
    (hm : h.toNat < m) : t.chain n (some h) = t.chain m (some h) := by
  induction n generalizing m h with
  | zero => lia
  | succ n ih =>
    obtain ⟨m, rfl⟩ : ∃ k, m = k + 1 := ⟨m - 1, by lia⟩
    simp only [chain]
    cases hp : (t.node? h).bind (·.parent) with
    | none => rw [chain_none, chain_none]
    | some p =>
      obtain ⟨node, hnode, hpar⟩ := Option.bind_eq_some_iff.mp hp
      have hlt := ht p h ⟨node, hnode, hpar⟩
      rw [ih m p (by lia) (by lia)]

theorem ancestors_of_isParent (ht : t.Descending) (hp : t.IsParent p h) :
    t.ancestors h = p :: t.ancestors p := by
  have hlt := ht p h hp
  obtain ⟨n, hn, hnp⟩ := hp
  have hsize := lt_nextHandle_of_node? hn
  simp only [nextHandle] at hsize
  have hchain := chain_congr ht t.slots.size (t.slots.size + 1) p (by lia) (by lia)
  rw [ancestors, hn, Option.bind_some, hnp, hchain]
  rfl

theorem mem_ancestors_iff (ht : t.Descending) : a ∈ t.ancestors h ↔ t.Encloses a h := by
  induction h using ht.wellFounded_outwards.induction with
  | _ h ih =>
    cases hp : (t.node? h).bind (·.parent) with
    | none =>
      rw [ancestors, hp, chain_none]
      refine ⟨fun ha => absurd ha List.not_mem_nil, fun ha => ?_⟩
      obtain ⟨p, n, hn, hnp⟩ : ∃ p, t.IsParent p h := by
        cases ha with
        | single hp => exact ⟨_, hp⟩
        | tail _ hp => exact ⟨_, hp⟩
      rw [hn, Option.bind_some, hnp] at hp
      cases hp
    | some p =>
      obtain ⟨n, hn, hnp⟩ := Option.bind_eq_some_iff.mp hp
      have hpar : t.IsParent p h := ⟨n, hn, hnp⟩
      rw [ht.ancestors_of_isParent hpar, List.mem_cons, ih p hpar,
        encloses_iff_covers_parent hpar, Covers, eq_comm]

theorem length_ancestors_lt (ht : t.Descending) (ha : t.Encloses a h) :
    (t.ancestors a).length < (t.ancestors h).length := by
  induction ha with
  | single hp => rw [ht.ancestors_of_isParent hp]; simp
  | tail _ hp ih => rw [ht.ancestors_of_isParent hp]; simp only [List.length_cons]; lia

end Descending

theorem kind_eq {n : Node} (hn : t.node? h = some n) : t.kind h = .ok n.kind := by
  simp [kind, get, hn, bind, Except.bind, pure, Except.pure]

theorem parent_eq {n : Node} (hn : t.node? h = some n) : t.parent h = .ok n.parent := by
  simp [parent, get, hn, bind, Except.bind, pure, Except.pure]

theorem origin_eq {n : Node} (hn : t.node? h = some n) : t.origin h = .ok n.origin := by
  simp [origin, get, hn, bind, Except.bind, pure, Except.pure]

theorem depth_eq {n : Node} (hn : t.node? h = some n) : t.depth h = .ok (t.ancestors h).length := by
  simp [depth, get, hn, bind, Except.bind, pure, Except.pure]

theorem location_eq {n : Node} (hn : t.node? h = some n) :
    t.location h = .ok (t.source.location (t.spanOf h)) := by
  simp [location, get, hn, bind, Except.bind, pure, Except.pure]

theorem visit_eq {skipped : String → Bool} {n : Node} (hn : t.node? h = some n) :
    t.visit skipped h = .ok (t.walk skipped t.slots.size (t.ancestors h).length h) := by
  simp [visit, depth_eq hn, bind, Except.bind, pure, Except.pure]

theorem isAncestor_eq {n m : Node} (ha : t.node? a = some n) (hb : t.node? b = some m) :
    t.isAncestor a b = .ok ((t.ancestors b).contains a) := by
  simp [isAncestor, get, ha, hb, bind, Except.bind, pure, Except.pure]

theorem live_of_isAncestor {c : Bool} (h : t.isAncestor a b = .ok c) :
    (∃ n, t.node? a = some n) ∧ ∃ n, t.node? b = some n := by
  simp only [isAncestor, bind, Except.bind] at h
  split at h
  · cases h
  next n hn =>
  split at h
  · cases h
  next m hm =>
  exact ⟨⟨n, get_eq_ok_iff.mp hn⟩, ⟨m, get_eq_ok_iff.mp hm⟩⟩

theorem overlap_spec (ht : t.Descending) {n m : Node} (ha : t.node? a = some n)
    (hb : t.node? b = some m) : ∃ c, t.overlap a b = .ok c ∧ (c = true ↔ t.Overlaps a b) := by
  unfold overlap
  by_cases hab : a = b
  · rw [if_pos hab]
    refine ⟨true, rfl, ?_⟩
    simp [hab, Overlaps, covers_refl]
  · rw [if_neg hab, isAncestor_eq ha hb, isAncestor_eq hb ha]
    have hin := ht.mem_ancestors_iff (a := a) (h := b)
    have hout := ht.mem_ancestors_iff (a := b) (h := a)
    cases hc : (t.ancestors b).contains a with
    | true =>
      refine ⟨true, rfl, ?_⟩
      rw [List.contains_iff_mem, hin] at hc
      simp [Overlaps, Covers, hc]
    | false =>
      refine ⟨(t.ancestors a).contains b, rfl, ?_⟩
      rw [← Bool.not_eq_true, List.contains_iff_mem, hin] at hc
      rw [List.contains_iff_mem, hout]
      simp [Overlaps, Covers, hc, hab, Ne.symm hab]

end LintRepair.Tree
