import LintRepair.Proofs.Tree.Enclosing
import Mathlib.Data.List.Chain

/-!
# Well-formed trees

The invariant of the arena: parent links and part lists say the same thing, parents come before
their children, literal text is merged, and marks of change reach the root. From it follow the
readings that the engine relies on: chains of parents end at the root, and a walk from a node meets
exactly the nodes that it covers, each once.
-/
namespace LintRepair

/-- No empty text and no two texts next to each other. -/
def Part.Tidy (parts : List Part) : Prop :=
  .text [] ∉ parts ∧ parts.IsChain fun p q => p.isNode = true ∨ q.isNode = true

namespace Tree

structure WellFormed (t : Tree) : Prop where
  root_live : ∃ n, t.node? root = some n
  orphan_iff : ∀ h n, t.node? h = some n → (n.parent = none ↔ h = root)
  descending : t.Descending
  listed : ∀ p h, t.IsParent p h → ∃ n, t.node? p = some n ∧ h ∈ Part.handles n.parts
  adopted : ∀ p n c, t.node? p = some n → c ∈ Part.handles n.parts → t.IsParent p c
  handles_nodup : ∀ p n, t.node? p = some n → (Part.handles n.parts).Nodup
  tidy : ∀ p n, t.node? p = some n → Part.Tidy n.parts
  dirty_parent : ∀ p h n m, t.node? h = some n → n.parent = some p → t.node? p = some m →
    n.dirty = true → m.dirty = true

namespace WellFormed

variable {t : Tree} {a b c h p x : Handle} {n m : Node}

theorem parent_live (ht : t.WellFormed) (hp : t.IsParent p h) : ∃ n, t.node? p = some n :=
  (ht.listed p h hp).imp fun _ hn => hn.1

theorem outer_live (ht : t.WellFormed) (ha : t.Encloses a h) : ∃ n, t.node? a = some n := by
  obtain ⟨c, hc, -⟩ := Relation.TransGen.head'_iff.mp ha
  exact ht.parent_live hc

theorem exists_parent (ht : t.WellFormed) (hn : t.node? h = some n) (hr : h ≠ root) :
    ∃ p, n.parent = some p ∧ t.IsParent p h := by
  cases hp : n.parent with
  | none => exact absurd ((ht.orphan_iff h n hn).mp hp) hr
  | some p => exact ⟨p, rfl, n, hn, hp⟩

theorem encloses_iff_child (ht : t.WellFormed) (hn : t.node? h = some n) :
    t.Encloses h x ↔ ∃ c ∈ Part.handles n.parts, t.Covers c x := by
  constructor
  · intro hx
    obtain ⟨c, hc, hcx⟩ := Relation.TransGen.head'_iff.mp hx
    obtain ⟨m, hm, hmem⟩ := ht.listed h c hc
    rw [hn] at hm
    cases hm
    refine ⟨c, hmem, ?_⟩
    rcases Relation.reflTransGen_iff_eq_or_transGen.mp hcx with rfl | hcx
    · exact .inl rfl
    · exact .inr hcx
  · rintro ⟨c, hc, hcx⟩
    have hpar := (ht.adopted h n c hn hc).encloses
    rcases hcx with rfl | hcx
    · exact hpar
    · exact hpar.trans hcx

theorem siblings_disjoint (ht : t.WellFormed) (hb : t.IsParent p b) (hc : t.IsParent p c)
    (hbx : t.Covers b x) (hcx : t.Covers c x) : b = c := by
  have hlt := ht.descending p b hb
  have hlt' := ht.descending p c hc
  rcases hbx.overlaps hcx with (rfl | hbc) | (rfl | hcb)
  · rfl
  · have := ht.descending.covers_le ((encloses_iff_covers_parent hc).mp hbc)
    lia
  · rfl
  · have := ht.descending.covers_le ((encloses_iff_covers_parent hb).mp hcb)
    lia

theorem mem_walk_iff (ht : t.WellFormed) (fuel depth : Nat) (h : Handle)
    (hf : t.slots.size ≤ fuel + h.toNat) :
    x ∈ (t.walk (fun _ => false) fuel depth h).map (·.handle) ↔
      (∃ n, t.node? h = some n) ∧ t.Covers h x := by
  induction fuel generalizing depth h with
  | zero =>
    have hdead : t.node? h = none := by
      by_cases hneg : h < 0
      · exact node?_of_neg hneg
      · exact node?_of_nextHandle_le (by simp only [nextHandle]; lia)
    simp [walk, hdead]
  | succ fuel ih =>
    cases hn : t.node? h with
    | none => simp [walk, hn]
    | some n =>
      have hstep : ∀ c ∈ Part.handles n.parts,
          (x ∈ (t.walk (fun _ => false) fuel (depth + 1) c).map (·.handle) ↔ t.Covers c x) := by
        intro c hc
        have hpar := ht.adopted h n c hn hc
        have hlt := ht.descending h c hpar
        rw [ih (depth + 1) c (by lia)]
        exact and_iff_right hpar.inner_live
      simp only [walk, hn, Bool.false_eq_true, if_false, List.map_cons, List.map_flatMap,
        List.mem_cons, List.mem_flatMap, Covers, ht.encloses_iff_child hn]
      constructor
      · rintro (rfl | ⟨c, hc, hx⟩)
        · exact ⟨⟨n, rfl⟩, .inl rfl⟩
        · exact ⟨⟨n, rfl⟩, .inr ⟨c, hc, (hstep c hc).mp hx⟩⟩
      · rintro ⟨-, rfl | ⟨c, hc, hx⟩⟩
        · exact .inl rfl
        · exact .inr ⟨c, hc, (hstep c hc).mpr hx⟩

theorem nodup_walk (ht : t.WellFormed) (fuel depth : Nat) (h : Handle)
    (hf : t.slots.size ≤ fuel + h.toNat) :
    ((t.walk (fun _ => false) fuel depth h).map (·.handle)).Nodup := by
  induction fuel generalizing depth h with
  | zero => exact List.nodup_nil
  | succ fuel ih =>
    cases hn : t.node? h with
    | none => simp [walk, hn]
    | some n =>
      have hchild : ∀ c ∈ Part.handles n.parts, t.IsParent h c ∧ t.slots.size ≤ fuel + c.toNat := by
        intro c hc
        have hpar := ht.adopted h n c hn hc
        have hlt := ht.descending h c hpar
        exact ⟨hpar, by lia⟩
      simp only [walk, hn, Bool.false_eq_true, if_false, List.map_cons, List.map_flatMap,
        List.nodup_cons, List.mem_flatMap, List.nodup_flatMap]
      refine ⟨?_, fun c hc => ih _ c (hchild c hc).2, ?_⟩
      · rintro ⟨c, hc, hmem⟩
        have hcov := ((ht.mem_walk_iff _ _ c (hchild c hc).2).mp hmem).2
        have := ht.descending.covers_le hcov
        have := ht.descending h c (hchild c hc).1
        lia
      · refine (ht.handles_nodup h n hn).imp_of_mem ?_
        intro b c hb hc hne x hxb hxc
        have hbx := ((ht.mem_walk_iff _ _ b (hchild b hb).2).mp hxb).2
        have hcx := ((ht.mem_walk_iff _ _ c (hchild c hc).2).mp hxc).2
        exact hne (ht.siblings_disjoint (hchild b hb).1 (hchild c hc).1 hbx hcx)

theorem mem_subtree_iff (ht : t.WellFormed) (hn : t.node? h = some n) :
    x ∈ t.subtree h ↔ t.Covers h x := by
  rw [subtree, ht.mem_walk_iff _ _ _ (by lia)]
  exact and_iff_right ⟨n, hn⟩

theorem nodup_subtree (ht : t.WellFormed) (h : Handle) : (t.subtree h).Nodup :=
  ht.nodup_walk _ _ _ (by lia)

/-- What holds of the root and of every child of a node of which it holds, holds of all nodes. -/
theorem of_root (ht : t.WellFormed) {P : Handle → Prop} (hroot : P root)
    (hstep : ∀ p c, t.IsParent p c → P p → P c) (hn : t.node? h = some n) : P h := by
  induction h using ht.descending.wellFounded_outwards.induction generalizing n with
  | _ h ih =>
    by_cases hr : h = root
    · exact hr ▸ hroot
    · obtain ⟨p, -, hp⟩ := ht.exists_parent hn hr
      obtain ⟨m, hm⟩ := ht.parent_live hp
      exact hstep p h hp (ih p hp hm)

theorem root_covers (ht : t.WellFormed) (hn : t.node? h = some n) : t.Covers root h :=
  ht.of_root (.inl rfl) (fun _ _ hp hc => (hc.encloses_of_isParent hp).covers) hn

theorem not_isParent_root (ht : t.WellFormed) : ¬ t.IsParent p root := by
  rintro ⟨n, hn, hp⟩
  rw [(ht.orphan_iff root n hn).mpr rfl] at hp
  cases hp

theorem eq_root_of_covers (ht : t.WellFormed) (hx : t.Covers x root) : x = root := by
  rcases hx with hx | hx
  · exact hx.symm
  · cases hx with
    | single hp => exact absurd hp ht.not_isParent_root
    | tail _ hp => exact absurd hp ht.not_isParent_root

theorem ancestors_root (ht : t.WellFormed) : t.ancestors root = [] := by
  rw [List.eq_nil_iff_forall_not_mem]
  intro a ha
  have := ht.descending.encloses_lt (ht.descending.mem_ancestors_iff.mp ha)
  simp only [root] at this
  lia

theorem getLast?_ancestors (ht : t.WellFormed) (hn : t.node? h = some n) (hr : h ≠ root) :
    (t.ancestors h).getLast? = some root := by
  have hroot := ht.ancestors_root
  rcases ht.root_covers hn with rfl | henc
  · exact absurd rfl hr
  · clear hn hr
    induction henc with
    | single hp => rw [ht.descending.ancestors_of_isParent hp, hroot]; rfl
    | tail _ hp ih =>
      rw [ht.descending.ancestors_of_isParent hp, List.getLast?_cons, ih]
      rfl

theorem dirty_of_encloses (ht : t.WellFormed) (ha : t.Encloses a h) (hn : t.node? h = some n)
    (hd : n.dirty = true) : ∃ m, t.node? a = some m ∧ m.dirty = true := by
  induction ha generalizing n with
  | @single h hp =>
    obtain ⟨m, hm⟩ := ht.parent_live hp
    obtain ⟨n', hn', hpar⟩ := hp
    rw [hn] at hn'
    cases hn'
    exact ⟨m, hm, ht.dirty_parent _ _ n m hn hpar hm hd⟩
  | @tail b h _ hp ih =>
    obtain ⟨m, hm⟩ := ht.parent_live hp
    obtain ⟨n', hn', hpar⟩ := hp
    rw [hn] at hn'
    cases hn'
    exact ih hm (ht.dirty_parent _ _ n m hn hpar hm hd)

end WellFormed

private theorem eq_map_range (xs : List (Option Node)) :
    xs = (List.range xs.length).map fun i => (xs[i]?).join := by
  apply List.ext_getElem
  · simp
  · intro i hi hi'
    simp [hi]

theorem size_eq_length (t : Tree) :
    t.size = ((List.range t.slots.size).filter fun i => t.isValid (Int.ofNat i)).length := by
  rw [size, eq_map_range t.slots.toList, List.countP_map, List.countP_eq_length_filter]
  apply congrArg List.length
  apply List.filter_congr
  intro i _
  have hi : (0 : Handle) ≤ Int.ofNat i := by lia
  rw [isValid, node?_of_nonneg hi]
  simp

theorem WellFormed.visit_root {t : Tree} (ht : t.WellFormed) :
    ∃ visits, t.visit (fun _ => false) root = .ok visits ∧ (visits.map (·.handle)).Nodup ∧
      (∀ h, h ∈ visits.map (·.handle) ↔ t.isValid h = true) ∧ visits.length = t.size := by
  obtain ⟨n, hn⟩ := ht.root_live
  have hmem : ∀ d h, h ∈ (t.walk (fun _ => false) t.slots.size d root).map (·.handle) ↔
      t.isValid h = true := by
    intro d h
    rw [ht.mem_walk_iff _ _ _ (by lia), isValid_iff]
    constructor
    · rintro ⟨-, hc⟩
      exact hc.inner_live hn
    · rintro ⟨m, hm⟩
      exact ⟨⟨n, hn⟩, ht.root_covers hm⟩
  refine ⟨_, visit_eq hn, ht.nodup_walk _ _ _ (by lia), hmem _, ?_⟩
  have hperm : ((t.walk (fun _ => false) t.slots.size (t.ancestors root).length root).map
      (·.handle)).Perm
      (((List.range t.slots.size).filter fun i => t.isValid (Int.ofNat i)).map Int.ofNat) := by
    apply (List.perm_ext_iff_of_nodup (ht.nodup_walk _ _ _ (by lia)) ?_).mpr
    · intro h
      rw [hmem, List.mem_map]
      constructor
      · intro hv
        obtain ⟨m, hm⟩ := isValid_iff.mp hv
        obtain ⟨hpos, hlt⟩ := lt_nextHandle_of_node? hm
        simp only [nextHandle] at hlt
        have hh : Int.ofNat h.toNat = h := Int.toNat_of_nonneg hpos
        refine ⟨h.toNat, ?_, hh⟩
        rw [List.mem_filter, List.mem_range, hh]
        exact ⟨by lia, hv⟩
      · rintro ⟨i, hi, rfl⟩
        exact (List.mem_filter.mp hi).2
    · exact (List.nodup_range.filter _).map fun i j hij => Int.ofNat.inj hij
  have hlen := hperm.length_eq
  rw [List.length_map, List.length_map] at hlen
  rw [hlen, size_eq_length]

end Tree
end LintRepair
