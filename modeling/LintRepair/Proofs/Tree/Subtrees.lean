import LintRepair.Proofs.Repair.Selection
import LintRepair.Proofs.Tree.Atomicity
import Mathlib.Order.Defs.Unbundled

/-!
# Subtrees

Whether a node lies inside another one, and how deep, is asked upwards along the parents. What a node has
inside is met downwards along the parts. In a well-formed tree the two ways tell the same (`Nested`): nodes
overlap exactly if walks from them meet in some node, and walks meet every node at its own depth.
-/
namespace LintRepair.Tree

variable {t : Tree} {skipped : String → Bool} {start a b h x : Handle} {n : Node}
  {visits : List Visit} {v : Visit}

/-- A full walk from the first node meets the second one. -/
def Reaches (t : Tree) (start h : Handle) : Prop :=
  ∃ visits, t.visit (fun _ => false) start = .ok visits ∧ h ∈ visits.map (·.handle)

theorem visit_eq_ok_iff : t.visit skipped start = .ok visits ↔
    (∃ n, t.node? start = some n) ∧
      t.walk skipped t.slots.size (t.ancestors start).length start = visits := by
  cases hn : t.node? start with
  | none => simp [visit, depth, get_of_node?_eq_none hn, bind, Except.bind]
  | some n => simp [visit_eq hn]

namespace WellFormed

variable (ht : t.WellFormed)
include ht

/-- A walk goes down along the parts, covering goes up along the parents. -/
theorem reaches_iff : t.Reaches a x ↔ (∃ n, t.node? a = some n) ∧ t.Covers a x := by
  have hwalk := ht.mem_walk_iff (x := x) t.slots.size (t.ancestors a).length a (by lia)
  constructor
  · rintro ⟨visits, hvisits, hx⟩
    obtain ⟨-, rfl⟩ := visit_eq_ok_iff.mp hvisits
    exact hwalk.mp hx
  · rintro ⟨hlive, hcov⟩
    exact ⟨_, visit_eq_ok_iff.mpr ⟨hlive, rfl⟩, hwalk.mpr ⟨hlive, hcov⟩⟩

theorem reaches_self (hn : t.node? a = some n) : t.Reaches a a :=
  ht.reaches_iff.mpr ⟨⟨n, hn⟩, t.covers_refl a⟩

theorem overlaps_iff_reaches {m : Node} (ha : t.node? a = some n) (hb : t.node? b = some m) :
    t.Overlaps a b ↔ ∃ x, t.Reaches a x ∧ t.Reaches b x := by
  constructor
  · rintro (hab | hba)
    · exact ⟨b, ht.reaches_iff.mpr ⟨⟨n, ha⟩, hab⟩, ht.reaches_self hb⟩
    · exact ⟨a, ht.reaches_self ha, ht.reaches_iff.mpr ⟨⟨m, hb⟩, hba⟩⟩
  · rintro ⟨x, hax, hbx⟩
    exact (ht.reaches_iff.mp hax).2.overlaps (ht.reaches_iff.mp hbx).2

theorem encloses_iff_reaches (ha : t.node? a = some n) :
    t.Encloses a b ↔ t.Reaches a b ∧ b ≠ a := by
  have hlive : ∃ n, t.node? a = some n := ⟨n, ha⟩
  rw [ht.reaches_iff, and_iff_right hlive]
  constructor
  · intro hab
    refine ⟨hab.covers, ?_⟩
    rintro rfl
    exact ht.descending.not_encloses_of_covers (t.covers_refl b) hab
  · rintro ⟨heq | hab, hne⟩
    · exact absurd heq hne
    · exact hab

theorem isAncestor_iff_encloses : t.isAncestor a b = .ok true ↔ t.Encloses a b := by
  constructor
  · intro hab
    obtain ⟨⟨n, hn⟩, m, hm⟩ := live_of_isAncestor hab
    rw [isAncestor_eq hn hm, Except.ok.injEq, List.contains_iff_mem] at hab
    exact ht.descending.mem_ancestors_iff.mp hab
  · intro hab
    obtain ⟨n, hn⟩ := ht.outer_live hab
    obtain ⟨m, hm⟩ := hab.inner_live
    rw [isAncestor_eq hn hm, List.contains_iff_mem.mpr (ht.descending.mem_ancestors_iff.mpr hab)]

/-- A walk that starts with the depth of its first node meets every node with the node's own depth. -/
theorem eq_of_mem_walk {fuel : Nat}
    (hv : v ∈ t.walk skipped fuel (t.ancestors h).length h) :
    ∃ n, t.node? v.handle = some n ∧ v = ⟨v.handle, n.kind, (t.ancestors v.handle).length⟩ := by
  induction fuel generalizing h with
  | zero => exact absurd hv List.not_mem_nil
  | succ fuel ih =>
    cases hn : t.node? h with
    | none => simp [walk, hn] at hv
    | some n =>
      simp only [walk, hn, List.mem_cons] at hv
      rcases hv with rfl | hv
      · exact ⟨n, hn, rfl⟩
      · split at hv
        · exact absurd hv List.not_mem_nil
        · obtain ⟨c, hc, hv⟩ := List.mem_flatMap.mp hv
          -- The number that goes down grows with the list of the nodes around.
          have hdepth : (t.ancestors c).length = (t.ancestors h).length + 1 := by
            rw [ht.descending.ancestors_of_isParent (ht.adopted h n c hn hc), List.length_cons]
          exact ih (hdepth ▸ hv)

theorem depth_of_mem_visit (hvisits : t.visit skipped start = .ok visits) (hv : v ∈ visits) :
    t.depth v.handle = .ok v.depth := by
  obtain ⟨-, rfl⟩ := visit_eq_ok_iff.mp hvisits
  obtain ⟨n, hn, heq⟩ := ht.eq_of_mem_walk hv
  rw [depth_eq hn, heq]

theorem exists_visit_root (hn : t.node? h = some n) : ∃ visits depth,
    t.visit (fun _ => false) root = .ok visits ∧ t.depth h = .ok depth ∧
      (visits.filter fun v => v.handle = h) = [⟨h, n.kind, depth⟩] := by
  obtain ⟨visits, hvisits, hnodup, hmem, -⟩ := ht.visit_root
  refine ⟨visits, _, hvisits, depth_eq hn, ?_⟩
  obtain ⟨-, hwalk⟩ := visit_eq_ok_iff.mp hvisits
  have hentry : ∀ v ∈ visits, v.handle = h → v = ⟨h, n.kind, (t.ancestors h).length⟩ := by
    rintro v hv rfl
    obtain ⟨m, hm, heq⟩ := ht.eq_of_mem_walk (hwalk ▸ hv)
    obtain rfl := Option.some.inj (hn.symm.trans hm)
    exact heq
  -- All entries for the node are the same, and no node has two.
  obtain ⟨v, hv, rfl⟩ := List.mem_map.mp ((hmem h).mpr (isValid_iff.mpr ⟨n, hn⟩))
  have hself := hentry v hv rfl
  have hone : ∀ w ∈ visits, decide (w.handle = v.handle) = decide (w = v) := fun w hw =>
    decide_eq_decide.mpr ⟨fun heq => (hentry w hw heq).trans hself.symm, congrArg _⟩
  rw [List.filter_congr hone, ← hself, List.filter_eq,
    List.count_eq_one_of_mem (List.Nodup.of_map _ hnodup) hv, List.replicate_one]

end WellFormed

/-- What is asked upwards along the parents agrees with what is met downwards along the parts. -/
structure Nested (t : Tree) : Prop where
  visits : ∀ a, t.isValid a = true → ∃ visits, t.visit (fun _ => false) a = .ok visits
  overlap_iff : ∀ a b, t.isValid a = true → t.isValid b = true →
    ∃ c, t.overlap a b = .ok c ∧ (c = true ↔ ∃ x, t.Reaches a x ∧ t.Reaches b x)
  claimed_iff : ∀ claimed nodes, t.AllLive claimed → t.AllLive nodes →
    ∃ c, t.claimedBy claimed nodes = .ok c ∧
      (c = true ↔ ∃ a ∈ claimed, ∃ b ∈ nodes, ∃ x, t.Reaches a x ∧ t.Reaches b x)
  isAncestor_iff : ∀ a b, t.isValid a = true → t.isValid b = true →
    ∃ c, t.isAncestor a b = .ok c ∧ (c = true ↔ t.Reaches a b ∧ b ≠ a)
  strict : IsStrictOrder Handle fun a b => t.isAncestor a b = .ok true
  depth_lt : ∀ a b, t.isAncestor a b = .ok true →
    ∃ d e, t.depth a = .ok d ∧ t.depth b = .ok e ∧ d < e
  /-- The nodes around one node lie inside each other. -/
  comparable : ∀ a b h, t.isAncestor a h = .ok true → t.isAncestor b h = .ok true →
    a = b ∨ t.isAncestor a b = .ok true ∨ t.isAncestor b a = .ok true
  /-- Every walk, from wherever it starts and whatever it skips, meets nodes at their depths. -/
  visit_depth : ∀ skipped start visits, t.visit skipped start = .ok visits →
    ∀ v ∈ visits, t.depth v.handle = .ok v.depth
  visit_root : ∀ h n, t.node? h = some n → ∃ visits depth,
    t.visit (fun _ => false) root = .ok visits ∧ t.depth h = .ok depth ∧
      (visits.filter fun v => v.handle = h) = [⟨h, n.kind, depth⟩]

theorem WellFormed.nested (ht : t.WellFormed) : t.Nested where
  visits a ha := ⟨_, visit_eq_ok_iff.mpr ⟨isValid_iff.mp ha, rfl⟩⟩
  overlap_iff a b ha hb := by
    obtain ⟨n, hn⟩ := isValid_iff.mp ha
    obtain ⟨m, hm⟩ := isValid_iff.mp hb
    obtain ⟨c, hc, hiff⟩ := overlap_spec ht.descending hn hm
    exact ⟨c, hc, hiff.trans (ht.overlaps_iff_reaches hn hm)⟩
  claimed_iff claimed nodes hclaimed hnodes := by
    obtain ⟨c, hc, hiff⟩ := claimedBy_spec ht.descending hclaimed hnodes
    refine ⟨c, hc, hiff.trans ?_⟩
    refine exists_congr fun a => and_congr_right fun ha => ?_
    refine exists_congr fun b => and_congr_right fun hb => ?_
    obtain ⟨n, hn⟩ := hclaimed a ha
    obtain ⟨m, hm⟩ := hnodes b hb
    exact ht.overlaps_iff_reaches hn hm
  isAncestor_iff a b ha hb := by
    obtain ⟨n, hn⟩ := isValid_iff.mp ha
    obtain ⟨m, hm⟩ := isValid_iff.mp hb
    refine ⟨_, isAncestor_eq hn hm, ?_⟩
    rw [List.contains_iff_mem, ht.descending.mem_ancestors_iff, ht.encloses_iff_reaches hn]
  strict.irrefl a haa :=
    ht.descending.not_encloses_of_covers (t.covers_refl a) (ht.isAncestor_iff_encloses.mp haa)
  strict.trans a b h hab hbh := by
    rw [ht.isAncestor_iff_encloses] at hab hbh ⊢
    exact hab.trans hbh
  depth_lt a b hab := by
    have henc := ht.isAncestor_iff_encloses.mp hab
    obtain ⟨n, hn⟩ := ht.outer_live henc
    obtain ⟨m, hm⟩ := henc.inner_live
    exact ⟨_, _, depth_eq hn, depth_eq hm, ht.descending.length_ancestors_lt henc⟩
  comparable a b h hah hbh := by
    simp only [ht.isAncestor_iff_encloses] at hah hbh ⊢
    rcases hah.covers.overlaps hbh.covers with (rfl | hab) | (rfl | hba)
    · exact .inl rfl
    · exact .inr (.inl hab)
    · exact .inl rfl
    · exact .inr (.inr hba)
  visit_depth _ _ _ hvisits _ hv := ht.depth_of_mem_visit hvisits hv
  visit_root _ _ hn := ht.exists_visit_root hn

/-- Whatever has been called on a tree, two nodes overlap exactly if their subtrees have a node in common,
and nodes lie inside each other, and as deep, as walks meet them. -/
theorem calls_nested (file : String) (source : Text) (template : Template) (es : List Edit) :
    ((ofTemplate file source template).calls es).Nested :=
  ((wellFormed_ofTemplate file source template).calls es).nested

end LintRepair.Tree
