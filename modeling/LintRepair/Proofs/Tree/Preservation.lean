import LintRepair.Proofs.Tree.Splicing

/-!
# Calls keep the arena well formed

What each handle names after a call, and from it the invariant: handles below the old bound keep
their node, lose it with the removed subtree, or take a mark of change; handles above it are the
grafted forest.
-/
namespace LintRepair.Tree

variable {t : Tree} {e : Edit} {s : Seat} {c h k p q : Handle} {n : Node}

theorem mem_removed_iff (ht : t.WellFormed) (hn : t.node? e.touched = some n) :
    k ∈ e.removed t ↔ e.removes = true ∧ t.Covers e.touched k := by
  unfold Edit.removed
  by_cases hr : e.removes = true
  · rw [if_pos hr, ht.mem_subtree_iff hn]
    exact (and_iff_right hr).symm
  · simp [hr]

theorem nodup_removed (ht : t.WellFormed) : (e.removed t).Nodup := by
  unfold Edit.removed
  split
  · exact ht.nodup_subtree _
  · exact List.nodup_nil

theorem not_mem_removed_of_covers (ht : t.WellFormed) (hp : t.IsParent p e.touched)
    (hk : t.Covers k p) : k ∉ e.removed t := by
  obtain ⟨n, hn⟩ := hp.inner_live
  rw [mem_removed_iff ht hn]
  rintro ⟨-, hc⟩
  exact ht.descending.not_encloses_of_covers hc (hk.encloses_of_isParent hp)

@[simp] theorem nextHandle_grafted (t : Tree) (parent : Handle) (e : Edit) :
    (t.grafted parent e).nextHandle = t.nextHandle + (e.subtree?.elim 0 Template.count : Nat) := by
  unfold grafted
  split <;> simp [*]

theorem node?_grafted_of_lt (parent : Handle) (e : Edit) (hk : k < t.nextHandle) :
    (t.grafted parent e).node? k = t.node? k := by
  unfold grafted
  split
  · exact node?_graft_of_lt _ _ hk
  · rfl

@[simp] theorem nextHandle_setParts (h : Handle) (n : Node) (parts : List Part) :
    (t.setParts h n parts).nextHandle = t.nextHandle :=
  (nextHandle_foldl_markDirty _).trans (nextHandle_setNode _)

@[simp] theorem nextHandle_splice (t : Tree) (s : Seat) (e : Edit) :
    (t.splice s e).nextHandle = t.nextHandle + (e.subtree?.elim 0 Template.count : Nat) := by
  simp [splice]

theorem grown_grafted {template : Template} (parent : Handle) (he : e.subtree? = some template) :
    (t.grafted parent e).Grown parent t.nextHandle (t.nextHandle + template.count)
      [t.nextHandle] := by
  apply grown_template
  intro i n hn
  simp only [grafted, he]
  exact (node?_graft_new template parent i).trans hn

theorem exists_grown_of_le (hn : (t.grafted p e).node? k = some n) (hk : t.nextHandle ≤ k) :
    ∃ last, k < last ∧ (t.grafted p e).Grown p t.nextHandle last [t.nextHandle] ∧
      e.subtree?.isSome := by
  have hbound := (lt_nextHandle_of_node? hn).2
  rw [nextHandle_grafted] at hbound
  cases he : e.subtree? with
  | none =>
    rw [he, Option.elim_none] at hbound
    lia
  | some template =>
    rw [he, Option.elim_some] at hbound
    exact ⟨_, hbound, grown_grafted p he, rfl⟩

theorem isParent_grafted_of_le (hq : (t.grafted p e).IsParent q h) (hh : t.nextHandle ≤ h) :
    (q = p ∧ h = t.nextHandle ∧ e.subtree?.isSome) ∨ (t.nextHandle ≤ q ∧ q < h ∧
      ∃ m, (t.grafted p e).node? q = some m ∧ h ∈ Part.handles m.parts) := by
  obtain ⟨n, hn⟩ := hq.inner_live
  obtain ⟨last, hlast, hgrown, hsome⟩ := exists_grown_of_le hn hh
  rcases hgrown.home h hh hlast with ⟨hp, htop⟩ | ⟨x, m, hx, hle, hlt, hm, hmem⟩
  · exact .inl ⟨hq.unique hp, List.mem_singleton.mp htop, hsome⟩
  · rw [hq.unique hx]
    exact .inr ⟨hle, hlt, m, hm, hmem⟩

theorem node?_splice_parent (hs : t.seat e.touched e.operation = .ok s) :
    (t.splice s e).node? s.parent =
      some { s.parentNode with parts := e.newParts s t.nextHandle, dirty := true } := by
  obtain ⟨-, hpar, -⟩ := seat_spec hs
  have hbound := lt_nextHandle_of_node? hpar
  rw [splice, setParts, node?_foldl_markDirty, node?_setNode_self hbound.1 (by
    rw [nextHandle_eraseAll, nextHandle_grafted]; lia)]
  simp [markIf]

section

variable (ht : t.WellFormed) (hs : t.seat e.touched e.operation = .ok s)
include ht hs

theorem live_of_mem_removed (hk : k ∈ e.removed t) : ∃ n, t.node? k = some n := by
  obtain ⟨n, hn⟩ := (seat_spec hs).1.inner_live
  exact ((mem_removed_iff ht hn).mp hk).2.inner_live hn

theorem removed_bounds : ∀ k ∈ e.removed t, 0 ≤ k ∧ k < t.nextHandle := by
  intro k hk
  obtain ⟨m, hm⟩ := live_of_mem_removed ht hs hk
  exact lt_nextHandle_of_node? hm

private theorem node?_erased :
    ((t.grafted s.parent e).eraseAll (e.removed t)).node? k =
      if k ∈ e.removed t then none else (t.grafted s.parent e).node? k :=
  node?_eraseAll fun k hk => (removed_bounds ht hs k hk).1

/-- Parent links of the tree in which a call writes its parts. -/
private theorem isParent_erased
    (hp : ((t.grafted s.parent e).eraseAll (e.removed t)).IsParent p h) :
    t.IsParent p h ∨ (t.nextHandle ≤ h ∧ 0 ≤ p ∧ p < h) := by
  obtain ⟨n, hn, hnp⟩ := hp
  rw [node?_erased ht hs] at hn
  split at hn
  · cases hn
  · by_cases hlt : h < t.nextHandle
    · rw [node?_grafted_of_lt _ _ hlt] at hn
      exact .inl ⟨n, hn, hnp⟩
    · have hseat := lt_nextHandle_of_node? (seat_spec hs).2.1
      rcases isParent_grafted_of_le ⟨n, hn, hnp⟩ (by lia) with
        ⟨rfl, rfl, -⟩ | ⟨hle, hph, -⟩
      · exact .inr ⟨by lia, hseat⟩
      · exact .inr ⟨by lia, by lia, hph⟩

private theorem mem_ancestors_erased :
    k ∈ ((t.grafted s.parent e).eraseAll (e.removed t)).ancestors s.parent ↔
      k ∈ t.ancestors s.parent := by
  have hdesc : ((t.grafted s.parent e).eraseAll (e.removed t)).Descending := by
    intro p h hp
    rcases isParent_erased ht hs hp with hp | ⟨-, hpos, hlt⟩
    · exact ht.descending p h hp
    · exact ⟨hpos, hlt⟩
  obtain ⟨hseat, hpar, -⟩ := seat_spec hs
  rw [hdesc.mem_ancestors_iff, ht.descending.mem_ancestors_iff]
  constructor
  · intro hk
    have hback : ∀ p x, ((t.grafted s.parent e).eraseAll (e.removed t)).IsParent p x →
        x < t.nextHandle → t.IsParent p x := by
      intro p x hp hlt
      rcases isParent_erased ht hs hp with hp | ⟨hge, -⟩
      · exact hp
      · lia
    refine hk.transfer (fun p x hp hlt => ?_) hback (lt_nextHandle_of_node? hpar).2
    have := ht.descending p x (hback p x hp hlt)
    lia
  · intro hk
    refine hk.transfer (fun p x hp hx => hp.encloses.covers.trans hx) ?_ (covers_refl t s.parent)
    rintro p x ⟨n, hn, hnp⟩ hx
    refine ⟨n, ?_, hnp⟩
    rw [node?_erased ht hs, if_neg (not_mem_removed_of_covers ht hseat hx),
      node?_grafted_of_lt _ _ (lt_nextHandle_of_node? hn).2, hn]

theorem node?_splice_of_lt (hk : k < t.nextHandle) (hne : k ≠ s.parent) :
    (t.splice s e).node? k = if k ∈ e.removed t then none
      else (t.node? k).map (markIf (decide (k ∈ t.ancestors s.parent))) := by
  obtain ⟨-, hpar, -⟩ := seat_spec hs
  have hbound := lt_nextHandle_of_node? hpar
  have hmem : (k ∈ s.parent :: ((t.grafted s.parent e).eraseAll (e.removed t)).ancestors s.parent) ↔
      k ∈ t.ancestors s.parent := by
    rw [List.mem_cons, mem_ancestors_erased ht hs]
    exact or_iff_right hne
  rw [splice, setParts, node?_foldl_markDirty, node?_setNode_ne hbound.1 _ hne,
    node?_erased ht hs, node?_grafted_of_lt _ _ hk, decide_eq_decide.mpr hmem]
  split <;> rfl

theorem node?_splice_of_le (hk : t.nextHandle ≤ k) :
    (t.splice s e).node? k = (t.grafted s.parent e).node? k := by
  obtain ⟨-, hpar, -⟩ := seat_spec hs
  have hbound := lt_nextHandle_of_node? hpar
  have hremoved : k ∉ e.removed t := by
    intro hmem
    have := removed_bounds ht hs k hmem
    lia
  have hmem : ¬ k ∈ s.parent ::
      ((t.grafted s.parent e).eraseAll (e.removed t)).ancestors s.parent := by
    rw [List.mem_cons, mem_ancestors_erased ht hs, ht.descending.mem_ancestors_iff]
    rintro (rfl | hanc)
    · lia
    · have := ht.descending.encloses_lt hanc
      lia
  rw [splice, setParts, node?_foldl_markDirty, node?_setNode_ne hbound.1 _ (by lia),
    node?_erased ht hs, if_neg hremoved, decide_eq_false hmem]
  cases (t.grafted s.parent e).node? k with
  | none => rfl
  | some n => simp [markIf]

/-- All that a call does to a node that stays: new parts for the parent of its node, and the mark for the
parent and the nodes around it. -/
theorem node?_splice_of_kept (hn : t.node? k = some n) (hrem : k ∉ e.removed t) :
    (t.splice s e).node? k = some { n with
      parts := if k = s.parent then e.newParts s t.nextHandle else n.parts
      dirty := n.dirty || decide (k ∈ s.parent :: t.ancestors s.parent) } := by
  obtain ⟨-, hpar, -⟩ := seat_spec hs
  by_cases hkp : k = s.parent
  · subst hkp
    obtain rfl := Option.some.inj (hn.symm.trans hpar)
    rw [node?_splice_parent hs]
    simp
  · rw [node?_splice_of_lt ht hs (lt_nextHandle_of_node? hn).2 hkp, if_neg hrem, hn, if_neg hkp]
    simp [markIf, hkp]

theorem exists_old_of_splice {n' : Node} (hk : k < t.nextHandle)
    (hn' : (t.splice s e).node? k = some n') :
    k ∉ e.removed t ∧ ∃ n, t.node? k = some n ∧ n'.parent = n.parent ∧
      n'.parts = (if k = s.parent then e.newParts s t.nextHandle else n.parts) ∧
      (n'.dirty = true ↔ n.dirty = true ∨ t.Covers k s.parent) := by
  obtain ⟨hseat, hpar, -⟩ := seat_spec hs
  have hold : k ∉ e.removed t ∧ ∃ n, t.node? k = some n := by
    by_cases hkp : k = s.parent
    · subst hkp
      exact ⟨not_mem_removed_of_covers ht hseat (covers_refl t _), _, hpar⟩
    · rw [node?_splice_of_lt ht hs hk hkp] at hn'
      split at hn'
      · cases hn'
      · next hrem =>
        obtain ⟨n, hn, -⟩ := Option.map_eq_some_iff.mp hn'
        exact ⟨hrem, n, hn⟩
  obtain ⟨hrem, n, hn⟩ := hold
  rw [node?_splice_of_kept ht hs hn hrem] at hn'
  cases hn'
  refine ⟨hrem, n, hn, rfl, rfl, ?_⟩
  rw [Bool.or_eq_true, decide_eq_true_eq, List.mem_cons, ht.descending.mem_ancestors_iff,
    eq_comm (a := k)]
  rfl

theorem exists_splice_of_old (hn : t.node? k = some n) (hrem : k ∉ e.removed t) :
    ∃ n', (t.splice s e).node? k = some n' ∧ n'.parent = n.parent :=
  ⟨_, node?_splice_of_kept ht hs hn hrem, rfl⟩

theorem live_splice_iff : (∃ n, (t.splice s e).node? k = some n) ↔
    ((∃ n, t.node? k = some n) ∧ k ∉ e.removed t) ∨
      (t.nextHandle ≤ k ∧ k < (t.splice s e).nextHandle) := by
  constructor
  · rintro ⟨n', hn'⟩
    by_cases hk : k < t.nextHandle
    · obtain ⟨hrem, n, hn, -⟩ := exists_old_of_splice ht hs hk hn'
      exact .inl ⟨⟨n, hn⟩, hrem⟩
    · exact .inr ⟨by lia, (lt_nextHandle_of_node? hn').2⟩
  · rintro (⟨⟨n, hn⟩, hrem⟩ | ⟨hle, hlt⟩)
    · obtain ⟨n', hn', -⟩ := exists_splice_of_old ht hs hn hrem
      exact ⟨n', hn'⟩
    · rw [nextHandle_splice] at hlt
      rw [node?_splice_of_le ht hs hle]
      cases he : e.subtree? with
      | none => rw [he, Option.elim_none] at hlt; lia
      | some template =>
        rw [he, Option.elim_some] at hlt
        exact (grown_grafted s.parent he).live k hle hlt

theorem isInvalidated_splice_iff : (t.splice s e).isInvalidated k = true ↔
    t.isInvalidated k = true ∨ k ∈ e.removed t := by
  have hbounds := removed_bounds ht hs k
  have hnext := nextHandle_splice t s e
  rw [isInvalidated_iff, isInvalidated_iff, live_splice_iff ht hs]
  constructor
  · rintro ⟨⟨hpos, hlt⟩, hdead⟩
    rw [not_or] at hdead
    by_cases hrem : k ∈ e.removed t
    · exact .inr hrem
    · exact .inl ⟨⟨hpos, by lia⟩, fun hlive => hdead.1 ⟨hlive, hrem⟩⟩
  · rintro (⟨⟨hpos, hlt⟩, hdead⟩ | hrem)
    · exact ⟨⟨hpos, by lia⟩, by rintro (⟨hlive, -⟩ | hnew); exacts [hdead hlive, by lia]⟩
    · have := hbounds hrem
      exact ⟨⟨by lia, by lia⟩, by rintro (⟨-, hstay⟩ | hnew); exacts [hstay hrem, by lia]⟩

theorem isParent_splice_of_lt (hh : h < t.nextHandle) :
    (t.splice s e).IsParent p h ↔ t.IsParent p h ∧ h ∉ e.removed t := by
  constructor
  · rintro ⟨n', hn', hp⟩
    obtain ⟨hrem, n, hn, hpar, -⟩ := exists_old_of_splice ht hs hh hn'
    exact ⟨⟨n, hn, hpar ▸ hp⟩, hrem⟩
  · rintro ⟨⟨n, hn, hp⟩, hrem⟩
    obtain ⟨n', hn', hpar⟩ := exists_splice_of_old ht hs hn hrem
    exact ⟨n', hn', hpar.trans hp⟩

theorem isParent_splice_of_le (hh : t.nextHandle ≤ h) :
    (t.splice s e).IsParent p h ↔ (t.grafted s.parent e).IsParent p h := by
  rw [IsParent, IsParent, node?_splice_of_le ht hs hh]

/-- Of a node that neither goes nor is around the parent, nothing changes, and nothing inside it. -/
theorem node?_splice_of_clear (hn : t.node? h = some n) (hrem : h ∉ e.removed t)
    (hout : ¬ t.Covers h s.parent) (hk : t.Covers h k) : (t.splice s e).node? k = t.node? k := by
  obtain ⟨hseat, -, -⟩ := seat_spec hs
  obtain ⟨m, hm⟩ := hseat.inner_live
  obtain ⟨x, hx⟩ := hk.inner_live hn
  have hne : k ≠ s.parent := fun heq => hout (heq ▸ hk)
  have hancestor : k ∉ t.ancestors s.parent := fun hmem =>
    hout (hk.trans (ht.descending.mem_ancestors_iff.mp hmem).covers)
  -- A removal that reached inside would be of a node inside, which the parent is around.
  have hstays : k ∉ e.removed t := by
    rw [mem_removed_iff ht hm] at hrem ⊢
    rintro ⟨hr, hc⟩
    rcases hk.overlaps hc with hin | hin
    · rcases hin with heq | hin
      · exact hrem ⟨hr, .inl heq.symm⟩
      · exact hout ((encloses_iff_covers_parent hseat).mp hin)
    · exact hrem ⟨hr, hin⟩
  rw [node?_splice_of_kept ht hs hx hstays, hx]
  simp [hne, hancestor]

/-- A call removes whole subtrees: what stays has its parent stay. -/
theorem parent_not_mem_removed (hp : t.IsParent p h) (hh : h ∉ e.removed t) :
    p ∉ e.removed t := by
  obtain ⟨n, hn⟩ := (seat_spec hs).1.inner_live
  rw [mem_removed_iff ht hn] at hh ⊢
  rintro ⟨hr, hc⟩
  exact hh ⟨hr, (hc.encloses_of_isParent hp).covers⟩

theorem child_not_mem_removed (hp : t.IsParent p h) (hne : h ≠ e.touched)
    (hrem : p ∉ e.removed t) : h ∉ e.removed t := by
  obtain ⟨n, hn⟩ := (seat_spec hs).1.inner_live
  rw [mem_removed_iff ht hn] at hrem ⊢
  rintro ⟨hr, hc⟩
  rcases hc with rfl | hc
  · exact hne rfl
  · exact hrem ⟨hr, (encloses_iff_covers_parent hp).mp hc⟩

private theorem listed_splice (hp : (t.splice s e).IsParent p h) :
    ∃ n, (t.splice s e).node? p = some n ∧ h ∈ Part.handles n.parts := by
  obtain ⟨hseat, hpar, hparts⟩ := seat_spec hs
  obtain ⟨m, hm⟩ := hseat.inner_live
  by_cases hh : h < t.nextHandle
  · obtain ⟨hold, hrem⟩ := (isParent_splice_of_lt ht hs hh).mp hp
    obtain ⟨n, hn, hmem⟩ := ht.listed p h hold
    obtain ⟨n', hn', -⟩ := exists_splice_of_old ht hs hn (parent_not_mem_removed ht hs hold hrem)
    obtain ⟨-, n₁, hn₁, -, hparts', -⟩ :=
      exists_old_of_splice ht hs (lt_nextHandle_of_node? hn).2 hn'
    rw [hn] at hn₁
    cases hn₁
    refine ⟨n', hn', ?_⟩
    rw [hparts']
    split
    · next hps =>
      subst hps
      rw [hpar] at hn
      cases hn
      rw [hparts, Part.mem_handles_middle] at hmem
      rw [e.handles_newParts, List.mem_append, List.mem_append]
      rcases hmem with rfl | hmem
      · have hstays : ¬ e.removes = true := fun hr =>
          hrem ((mem_removed_iff ht hm).mpr ⟨hr, covers_refl t _⟩)
        refine .inl (.inr ?_)
        cases e <;> simp_all [Edit.seated, Edit.removes, Edit.touched]
      · exact (List.mem_append.mp hmem).imp_left .inl
    · exact hmem
  · have hp' := (isParent_splice_of_le ht hs (by lia)).mp hp
    rcases isParent_grafted_of_le hp' (by lia) with ⟨rfl, rfl, hsome⟩ | ⟨hle, -, m, hm, hmem⟩
    · refine ⟨_, node?_splice_parent hs, ?_⟩
      rw [e.handles_newParts, List.mem_append, List.mem_append]
      refine .inl (.inr ?_)
      cases e <;> simp_all [Edit.seated, Edit.subtree?]
    · exact ⟨m, (node?_splice_of_le ht hs hle).trans hm, hmem⟩

/-- What is seated belongs to the seat's parent. -/
private theorem isParent_of_mem_seated (hc : c ∈ e.seated t.nextHandle) :
    (t.splice s e).IsParent s.parent c := by
  obtain ⟨hseat, -, -⟩ := seat_spec hs
  obtain ⟨m, hm⟩ := hseat.inner_live
  have hnew : ∀ template, e.subtree? = some template →
      (t.splice s e).IsParent s.parent t.nextHandle := by
    intro template he
    rw [isParent_splice_of_le ht hs (by lia)]
    exact ((grown_grafted s.parent he).top _ List.mem_cons_self).2.2
  have hstays : ¬ e.removes = true → (t.splice s e).IsParent s.parent e.touched := by
    intro hr
    rw [isParent_splice_of_lt ht hs (lt_nextHandle_of_node? hm).2]
    exact ⟨hseat, fun hmem => hr ((mem_removed_iff ht hm).mp hmem).1⟩
  cases e with
  | replace h template =>
    rw [List.mem_singleton.mp hc]
    exact hnew template rfl
  | insertBefore h template sep =>
    rcases List.mem_pair.mp hc with rfl | rfl
    · exact hnew template rfl
    · exact hstays (by simp [Edit.removes])
  | insertAfter h template sep =>
    rcases List.mem_pair.mp hc with rfl | rfl
    · exact hstays (by simp [Edit.removes])
    · exact hnew template rfl
  | delete h => cases hc

theorem touched_not_mem_sides :
    (Part.handles s.before ++ Part.handles s.after).Nodup ∧
      e.touched ∉ Part.handles s.before ++ Part.handles s.after := by
  obtain ⟨-, hpar, hparts⟩ := seat_spec hs
  have hnodup := ht.handles_nodup _ _ hpar
  rw [hparts, Part.nodup_handles_middle] at hnodup
  exact hnodup.symm

theorem ne_touched_of_mem_sides (hc : c ∈ Part.handles s.before ++ Part.handles s.after) :
    c ≠ e.touched := by
  rintro rfl
  exact (touched_not_mem_sides ht hs).2 hc

theorem isParent_of_mem_sides
    (hc : c ∈ Part.handles s.before ++ Part.handles s.after) : t.IsParent s.parent c := by
  obtain ⟨-, hpar, hparts⟩ := seat_spec hs
  exact ht.isParent_of_parts hpar hparts (.inr hc)

private theorem adopted_splice {n' : Node} (hn' : (t.splice s e).node? p = some n')
    (hc : c ∈ Part.handles n'.parts) : (t.splice s e).IsParent p c := by
  obtain ⟨hseat, hpar, -⟩ := seat_spec hs
  by_cases hp : p < t.nextHandle
  · obtain ⟨hrem, n, hn, -, hparts', -⟩ := exists_old_of_splice ht hs hp hn'
    rw [hparts'] at hc
    have hchild : t.IsParent p c → c ≠ e.touched → (t.splice s e).IsParent p c := by
      intro hpc hne
      obtain ⟨m, hm⟩ := hpc.inner_live
      rw [isParent_splice_of_lt ht hs (lt_nextHandle_of_node? hm).2]
      exact ⟨hpc, child_not_mem_removed ht hs hpc hne hrem⟩
    split at hc
    · next hps =>
      subst hps
      rw [e.handles_newParts, List.append_assoc] at hc
      have hsides : c ∈ Part.handles s.before ++ Part.handles s.after →
          (t.splice s e).IsParent s.parent c := fun hmem =>
        hchild (isParent_of_mem_sides ht hs hmem) (ne_touched_of_mem_sides ht hs hmem)
      rcases List.mem_append.mp hc with hc | hc
      · exact hsides (List.mem_append_left _ hc)
      · rcases List.mem_append.mp hc with hc | hc
        · exact isParent_of_mem_seated ht hs hc
        · exact hsides (List.mem_append_right _ hc)
    · next hps =>
      have hpc := ht.adopted p n c hn hc
      exact hchild hpc fun he => hps (by rw [he] at hpc; exact hpc.unique hseat)
  · rw [node?_splice_of_le ht hs (by lia)] at hn'
    obtain ⟨last, hlast, hgrown, -⟩ := exists_grown_of_le hn' (by lia)
    have hpc := (hgrown.child p n' c (by lia) hlast hn' hc).2
    by_cases hlt : c < t.nextHandle
    · obtain ⟨m, hm, hmp⟩ := hpc
      rw [node?_grafted_of_lt _ _ hlt] at hm
      have := ht.descending p c ⟨m, hm, hmp⟩
      lia
    · exact (isParent_splice_of_le ht hs (by lia)).mpr hpc

private theorem nodup_handles_newParts : (Part.handles (e.newParts s t.nextHandle)).Nodup := by
  obtain ⟨hnodup, hside⟩ := touched_not_mem_sides ht hs
  have hnew : t.nextHandle ∉ Part.handles s.before ++ Part.handles s.after := by
    intro hmem
    obtain ⟨m, hm⟩ := (isParent_of_mem_sides ht hs hmem).inner_live
    have := lt_nextHandle_of_node? hm
    lia
  have hne : e.touched ≠ t.nextHandle := by
    obtain ⟨m, hm⟩ := (seat_spec hs).1.inner_live
    have := lt_nextHandle_of_node? hm
    lia
  have hseated : (e.seated t.nextHandle).Nodup ∧
      ∀ c ∈ e.seated t.nextHandle, c = e.touched ∨ c = t.nextHandle := by
    have hne' := Ne.symm hne
    cases e <;> simp_all [Edit.seated, Edit.touched]
  rw [e.handles_newParts, List.append_assoc]
  refine (List.perm_append_comm_assoc _ _ _).nodup_iff.mpr (List.nodup_append.mpr
    ⟨hseated.1, hnodup, ?_⟩)
  rintro c hc d hd rfl
  rcases hseated.2 c hc with rfl | rfl
  · exact hside hd
  · exact hnew hd

private theorem fresh_splice {n' : Node} (hn' : (t.splice s e).node? k = some n') :
    (Part.handles n'.parts).Nodup ∧ Part.Tidy n'.parts := by
  obtain ⟨-, hpar, hparts⟩ := seat_spec hs
  by_cases hk : k < t.nextHandle
  · obtain ⟨-, n, hn, -, hparts', -⟩ := exists_old_of_splice ht hs hk hn'
    rw [hparts']
    split
    · refine ⟨nodup_handles_newParts ht hs, e.tidy_newParts _ ?_⟩
      rw [← hparts]
      exact ht.tidy _ _ hpar
    · exact ⟨ht.handles_nodup k n hn, ht.tidy k n hn⟩
  · rw [node?_splice_of_le ht hs (by lia)] at hn'
    obtain ⟨last, hlast, hgrown, -⟩ := exists_grown_of_le hn' (by lia)
    have hfresh := hgrown.fresh k n' (by lia) hlast hn'
    exact ⟨hfresh.1, hfresh.2.1⟩

private theorem clean_grafted {n' : Node} (hk : t.nextHandle ≤ k)
    (hn' : (t.splice s e).node? k = some n') : n'.dirty = false ∧ ∃ q, n'.parent = some q := by
  rw [node?_splice_of_le ht hs hk] at hn'
  obtain ⟨last, hlast, hgrown, -⟩ := exists_grown_of_le hn' hk
  refine ⟨(hgrown.fresh k n' hk hlast hn').2.2, ?_⟩
  obtain ⟨q, m, hm, hq⟩ : ∃ q, (t.grafted s.parent e).IsParent q k := by
    rcases hgrown.home k hk hlast with ⟨hq, -⟩ | ⟨q, -, hq, -⟩
    · exact ⟨_, hq⟩
    · exact ⟨q, hq⟩
  rw [hn'] at hm
  cases hm
  exact ⟨q, hq⟩

theorem wellFormed_splice : (t.splice s e).WellFormed := by
  obtain ⟨hseat, hpar, -⟩ := seat_spec hs
  have hbound := lt_nextHandle_of_node? hpar
  constructor
  · obtain ⟨n, hn⟩ := ht.root_live
    have hcov := ht.root_covers hpar
    obtain ⟨n', hn', -⟩ :=
      exists_splice_of_old ht hs hn (not_mem_removed_of_covers ht hseat hcov)
    exact ⟨n', hn'⟩
  · intro h n' hn'
    by_cases hh : h < t.nextHandle
    · obtain ⟨-, n, hn, hp, -⟩ := exists_old_of_splice ht hs hh hn'
      rw [hp]
      exact ht.orphan_iff h n hn
    · obtain ⟨-, q, hq⟩ := clean_grafted ht hs (by lia) hn'
      simp only [hq, root, reduceCtorEq, false_iff]
      lia
  · intro p h hp
    by_cases hh : h < t.nextHandle
    · exact ht.descending p h ((isParent_splice_of_lt ht hs hh).mp hp).1
    · have hp' := (isParent_splice_of_le ht hs (by lia)).mp hp
      rcases isParent_grafted_of_le hp' (by lia) with ⟨rfl, rfl, -⟩ | ⟨hle, hlt, -⟩
      · exact hbound
      · exact ⟨by lia, hlt⟩
  · exact fun p h hp => listed_splice ht hs hp
  · exact fun p n c hn hc => adopted_splice ht hs hn hc
  · exact fun p n hn => (fresh_splice ht hs hn).1
  · exact fun p n hn => (fresh_splice ht hs hn).2
  · intro p h n' m' hn' hp hm' hd
    by_cases hh : h < t.nextHandle
    · obtain ⟨-, n, hn, hpar', -, hdirty⟩ := exists_old_of_splice ht hs hh hn'
      have hparent : t.IsParent p h := ⟨n, hn, hpar' ▸ hp⟩
      obtain ⟨m, hm⟩ := ht.parent_live hparent
      obtain ⟨-, m₁, hm₁, -, -, hdirty'⟩ :=
        exists_old_of_splice ht hs (lt_nextHandle_of_node? hm).2 hm'
      rw [hm] at hm₁
      cases hm₁
      rw [hdirty']
      rcases hdirty.mp hd with hd | hcov
      · exact .inl (ht.dirty_parent p h n m hn (hpar' ▸ hp) hm hd)
      · exact .inr (hparent.encloses.covers.trans hcov)
    · rw [(clean_grafted ht hs (by lia) hn').1] at hd
      cases hd

end

theorem WellFormed.apply {next : Tree} (ht : t.WellFormed) (he : e.apply t = .ok next) :
    next.WellFormed := by
  obtain ⟨s, hs, rfl⟩ := apply_eq_ok_iff.mp he
  exact wellFormed_splice ht hs

/-- A node that replaces another one is of its template's kind and gets the parent of that one. -/
theorem WellFormed.exists_replace (ht : t.WellFormed) (hp : t.IsParent p h) (template : Template) :
    ∃ edited x m m', (Edit.replace h template).apply t = .ok edited ∧
      edited.node? t.nextHandle = some x ∧ x.kind = template.kind ∧ x.parent = some p ∧
      t.node? p = some m ∧ edited.node? p = some m' ∧ m'.kind = m.kind := by
  obtain ⟨s, hs⟩ : ∃ s, t.seat (Edit.replace h template).touched
      (Edit.replace h template).operation = .ok s := exists_seat ht hp _
  obtain ⟨hseat, hparent, -⟩ := seat_spec hs
  obtain rfl := hseat.unique hp
  have hnew := node?_graft_new (t := t) template s.parent 0
  rw [Int.natCast_zero, Int.add_zero] at hnew
  exact ⟨_, _, _, _, apply_eq_ok_iff.mpr ⟨s, hs, rfl⟩,
    (node?_splice_of_le ht hs (Int.le_refl _)).trans hnew, rfl, rfl, hparent, node?_splice_parent hs, rfl⟩

end LintRepair.Tree
