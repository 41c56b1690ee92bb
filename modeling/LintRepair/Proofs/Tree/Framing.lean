import LintRepair.Proofs.Tree.Caching
import Mathlib.Data.List.Basic

/-!
# What a call leaves as it was

A call changes the parts of one node, the parent of its own, and the texts of that node and of those around
it. Every other node that stays keeps its links, its place and its text (`Local`). Between the root and a
node stand the texts of the parts left and right of it (`Between`); a call leaves those around the parent,
so that the text of the whole tree changes where the text of the parent does.
-/
namespace LintRepair

namespace Edit

/-- The handles that a call hands out, one for each node of its subtree. -/
def added (t : Tree) (e : Edit) : List Handle :=
  (List.range' t.slots.size (e.subtree?.elim 0 Template.count)).map Int.ofNat

theorem nodup_added (t : Tree) (e : Edit) : (e.added t).Nodup :=
  (List.nodup_range' 1).map fun _ _ hij => Int.ofNat.inj hij

theorem length_added (t : Tree) (e : Edit) :
    (e.added t).length = e.subtree?.elim 0 Template.count := by
  rw [added, List.length_map, List.length_range']

end Edit

namespace Tree

/-- The node stands between two texts: those of the parts left and right of it, on all levels. -/
inductive Between (t : Tree) : Text → Handle → Text → Prop where
  | top : Between t [] root []
  | part {pre post : Text} {p c : Handle} {n : Node} {front back : List Part}
    (hp : Between t pre p post) (hn : t.node? p = some n)
    (hparts : n.parts = front ++ .node c :: back) :
    Between t (pre ++ Part.flat t.spelling front) c (Part.flat t.spelling back ++ post)

variable {t : Tree} {e : Edit} {s : Seat} {c h k p : Handle} {n : Node} {pre post : Text}
  {front back : List Part} {template : Template}

theorem mem_added_iff (s : Seat) :
    k ∈ e.added t ↔ t.nextHandle ≤ k ∧ k < (t.splice s e).nextHandle := by
  rw [Edit.added, nextHandle_splice, List.mem_map, nextHandle]
  simp only [List.mem_range'_1]
  constructor
  · rintro ⟨i, hi, rfl⟩
    exact ⟨by lia, by lia⟩
  · rintro ⟨hle, hlt⟩
    exact ⟨k.toNat, by lia, Int.toNat_of_nonneg (by lia)⟩

section Seated

variable (ht : t.WellFormed) (hs : t.seat e.touched e.operation = .ok s)
include ht hs

theorem ancestors_splice (hn : t.node? h = some n) (hrem : h ∉ e.removed t) :
    (t.splice s e).ancestors h = t.ancestors h := by
  have hwf := wellFormed_splice ht hs
  refine ht.of_root (P := fun h => h ∉ e.removed t → (t.splice s e).ancestors h = t.ancestors h)
    (fun _ => ?_) (fun p c hp ih hrem => ?_) hn hrem
  · rw [hwf.ancestors_root, ht.ancestors_root]
  · obtain ⟨m, hm⟩ := hp.inner_live
    have hp' := (isParent_splice_of_lt ht hs (lt_nextHandle_of_node? hm).2).mpr ⟨hp, hrem⟩
    rw [hwf.descending.ancestors_of_isParent hp', ht.descending.ancestors_of_isParent hp,
      ih (parent_not_mem_removed ht hs hp hrem)]

/-- What stays keeps its place in the source, also if that is the place of a node around it. -/
theorem spanOf_splice (hn : t.node? h = some n) (hrem : h ∉ e.removed t) :
    (t.splice s e).spanOf h = t.spanOf h := by
  obtain ⟨m, hm⟩ := (seat_spec hs).1.inner_live
  have hspan : ∀ k ∈ h :: t.ancestors h, ((t.splice s e).node? k).bind (·.span) =
      (t.node? k).bind (·.span) := by
    intro k hk
    have hcov : t.Covers k h := by
      rcases List.mem_cons.mp hk with rfl | hk
      · exact t.covers_refl k
      · exact (ht.descending.mem_ancestors_iff.mp hk).covers
    have hlive : ∃ x, t.node? k = some x := by
      rcases hcov with rfl | hin
      · exact ⟨n, hn⟩
      · exact ht.outer_live hin
    have hstays : k ∉ e.removed t := by
      rw [mem_removed_iff ht hm] at hrem ⊢
      exact fun ⟨hr, hc⟩ => hrem ⟨hr, hc.trans hcov⟩
    obtain ⟨x, hx⟩ := hlive
    rw [node?_splice_of_kept ht hs hx hstays, hx]
    rfl
  rw [spanOf, spanOf, ancestors_splice ht hs hn hrem, source_splice, ← List.head?_filterMap,
    ← List.head?_filterMap, List.filterMap_congr hspan]

theorem size_splice : (t.splice s e).size + (e.removed t).length =
    t.size + e.subtree?.elim 0 Template.count := by
  obtain ⟨old, -, hnodup, hmem, hsize⟩ := ht.visit_root
  obtain ⟨new, -, hnodup', hmem', hsize'⟩ := (wellFormed_splice ht hs).visit_root
  have hperm : (new.map (·.handle) ++ e.removed t).Perm (old.map (·.handle) ++ e.added t) := by
    refine (List.perm_ext_iff_of_nodup ?_ ?_).mpr fun k => ?_
    · refine List.nodup_append.mpr ⟨hnodup', nodup_removed ht, ?_⟩
      rintro a ha b hb rfl
      rw [hmem', isValid_iff, live_splice_iff ht hs] at ha
      rcases ha with ⟨-, hstay⟩ | hnew
      · exact hstay hb
      · have := removed_bounds ht hs a hb
        lia
    · refine List.nodup_append.mpr ⟨hnodup, e.nodup_added t, ?_⟩
      rintro a ha b hb rfl
      obtain ⟨x, hx⟩ := isValid_iff.mp ((hmem a).mp ha)
      have := lt_nextHandle_of_node? hx
      have := (mem_added_iff s).mp hb
      lia
    · rw [List.mem_append, List.mem_append, hmem', hmem, mem_added_iff s, isValid_iff, isValid_iff,
        live_splice_iff ht hs]
      by_cases hrem : k ∈ e.removed t
      · simp [hrem, live_of_mem_removed ht hs hrem]
      · simp [hrem]
  have hlength := hperm.length_eq
  rwa [List.length_append, List.length_append, List.length_map, List.length_map, hsize, hsize',
    Edit.length_added] at hlength

end Seated

theorem WellFormed.exists_between (ht : t.WellFormed) (hn : t.node? h = some n) :
    ∃ pre post, t.Between pre h post := by
  refine ht.of_root (P := fun h => ∃ pre post, t.Between pre h post) ⟨[], [], .top⟩ ?_ hn
  rintro p c hp ⟨pre, post, hb⟩
  obtain ⟨m, hm, hmem⟩ := ht.listed p c hp
  obtain ⟨front, back, hsplit⟩ := Part.exists_around hmem
  exact ⟨_, _, hb.part hm (Part.eq_of_around hsplit)⟩

theorem Between.root_eq (ht : t.WellFormed) (hb : t.Between pre root post) : pre = [] ∧ post = [] := by
  cases hb with
  | top => exact ⟨rfl, rfl⟩
  | part hp hn hparts =>
    exact absurd (ht.isParent_of_parts hn hparts (.inl rfl)) ht.not_isParent_root

theorem WellFormed.not_mem_sides (ht : t.WellFormed) (hn : t.node? p = some n)
    (hparts : n.parts = front ++ .node c :: back) : c ∉ Part.handles front ++ Part.handles back := by
  have hnodup := ht.handles_nodup p n hn
  rw [hparts, Part.nodup_handles_middle] at hnodup
  exact hnodup.1

theorem Between.unique (ht : t.WellFormed) {pre' post' : Text} (hb : t.Between pre h post)
    (hb' : t.Between pre' h post') : pre = pre' ∧ post = post' := by
  induction hb generalizing pre' post' with
  | top =>
    obtain ⟨rfl, rfl⟩ := hb'.root_eq ht
    exact ⟨rfl, rfl⟩
  | @part pre post p c n front back hp hn hparts ih =>
    have hchild := ht.isParent_of_parts hn hparts (.inl rfl)
    cases hb' with
    | top => exact absurd hchild ht.not_isParent_root
    | @part pre' post' p' _ n' front' back' hp' hn' hparts' =>
      obtain rfl : p = p' := hchild.unique (ht.isParent_of_parts hn' hparts' (.inl rfl))
      obtain rfl : n = n' := Option.some.inj (hn.symm.trans hn')
      have hnot := ht.not_mem_sides hn hparts
      rw [List.mem_append, not_or, Part.mem_handles_iff, Part.mem_handles_iff] at hnot
      obtain ⟨rfl, -, rfl⟩ :=
        (List.append_cons_inj_of_notMem hnot.1 hnot.2).mp (hparts.symm.trans hparts')
      obtain ⟨rfl, rfl⟩ := ih hp'
      exact ⟨rfl, rfl⟩

theorem Faithful.render_eq (ht : t.Faithful) (hb : t.Between pre h post) :
    t.render = pre ++ t.spelling h ++ post := by
  induction hb with
  | top => rw [List.nil_append, List.append_nil]; rfl
  | part hp hn hparts ih =>
    rw [ih, ht.spelling_eq hn, hparts, Part.flat_append, Part.flat_node]
    simp only [List.append_assoc]

section Seated

variable (ht : t.WellFormed) (hs : t.seat e.touched e.operation = .ok s)
include ht hs

/-- The texts on either side of the parent, and of the nodes around it, stay. -/
theorem Between.splice (hb : t.Between pre c post) (hcov : t.Covers c s.parent) :
    (t.splice s e).Between pre c post := by
  obtain ⟨hseat, -, -⟩ := seat_spec hs
  induction hb with
  | top => exact .top
  | @part pre post p c n front back hp hn hparts ih =>
    have hchild := ht.isParent_of_parts hn hparts (.inl rfl)
    have houter : t.Encloses p s.parent := by
      rcases hcov with heq | hin
      · exact heq ▸ hchild.encloses
      · exact hchild.encloses.trans hin
    have hne : p ≠ s.parent := by
      rintro heq
      exact ht.descending.not_encloses_of_covers (.inl heq) houter
    have hrem := not_mem_removed_of_covers ht hseat houter.covers
    -- The other children of the node are not around the parent, since this one is.
    have hbeside : ∀ d ∈ Part.handles front ++ Part.handles back,
        (t.splice s e).spelling d = t.spelling d := by
      intro d hd
      have hd' := ht.isParent_of_parts hn hparts (.inr hd)
      obtain ⟨m, hm⟩ := hd'.inner_live
      have htouched : d ≠ e.touched := by
        rintro rfl
        exact hne (hd'.unique hseat)
      refine spelling_splice_of_clear ht hs hm (child_not_mem_removed ht hs hd' htouched hrem)
        fun hdc => ht.not_mem_sides hn hparts ?_
      rwa [← ht.siblings_disjoint hd' hchild hdc hcov]
    have hfront : Part.flat t.spelling front = Part.flat (t.splice s e).spelling front :=
      Part.flat_congr fun d hd => (hbeside d (List.mem_append_left _ hd)).symm
    have hback : Part.flat t.spelling back = Part.flat (t.splice s e).spelling back :=
      Part.flat_congr fun d hd => (hbeside d (List.mem_append_right _ hd)).symm
    rw [hfront, hback]
    refine (ih houter.covers).part (node?_splice_of_kept ht hs hn hrem) ?_
    rw [if_neg hne, hparts]

end Seated

/-- The text of the tree after a call, told by the new parts of the parent. -/
theorem Faithful.render_splice (ht : t.Faithful) (hs : t.seat e.touched e.operation = .ok s)
    (hfree : e.SpanFree) (hb : t.Between pre s.parent post) : (t.splice s e).render =
      pre ++ Part.flat (t.splice s e).spelling (e.newParts s t.nextHandle) ++ post := by
  have hnext := ht.splice hs hfree
  rw [hnext.render_eq (hb.splice ht.wellFormed hs (t.covers_refl _)),
    hnext.spelling_eq (node?_splice_parent hs)]

/-- What is left by a call as it was, and what is not: `p` is the parent of the node of the call. -/
structure Local (t : Tree) (p : Handle) (e : Edit) (next : Tree) : Prop where
  kept : ∀ h n, t.node? h = some n → h ∉ e.removed t → ∃ n', next.node? h = some n' ∧
    n'.kind = n.kind ∧ n'.parent = n.parent ∧ n'.span = n.span ∧ n'.origin = n.origin
  depth : ∀ h, t.isValid h = true → h ∉ e.removed t → next.depth h = t.depth h
  location : ∀ h, t.isValid h = true → h ∉ e.removed t → next.location h = t.location h
  children : ∀ h, t.isValid h = true → h ∉ e.removed t → h ≠ p → next.children h = t.children h
  landing : e.landing t = .ok (e.subtree?.map fun _ => t.nextHandle)
  /-- Among the children of the parent only the node of the call gives way or gets a neighbour. -/
  children_parent : ∃ front back, t.children p = .ok (front ++ e.touched :: back) ∧
    next.children p = .ok (front ++ e.seated t.nextHandle ++ back)
  text : ∀ h, t.isValid h = true → h ∉ e.removed t → h ≠ p → h ∉ t.ancestors p →
    next.textOf h = t.textOf h
  removed_live : ∀ h ∈ e.removed t, t.isValid h = true
  invalidated : ∀ h, next.isInvalidated h = true ↔ t.isInvalidated h = true ∨ h ∈ e.removed t
  size : next.size + (e.removed t).length = t.size + e.subtree?.elim 0 Template.count
  /-- A replacement changes the text where its node stands. -/
  rendered : ∀ target template, e = .replace target template → ∃ pre own post,
    t.Between pre target post ∧ t.textOf target = .ok own ∧
    t.render = pre ++ own ++ post ∧ next.render = pre ++ template.plain ++ post

theorem children_eq (hn : t.node? h = some n) : t.children h = .ok (Part.handles n.parts) := by
  simp [children, get, hn, bind, Except.bind, pure, Except.pure]

theorem Faithful.local_splice (ht : t.Faithful) (hs : t.seat e.touched e.operation = .ok s)
    (hfree : e.SpanFree) : t.Local s.parent e (t.splice s e) := by
  have hwf := ht.wellFormed
  obtain ⟨hseat, hpar, hparts⟩ := seat_spec hs
  obtain ⟨m, hm⟩ := hseat.inner_live
  have hold : ∀ h, t.isValid h = true → h ∉ e.removed t → ∃ n n', t.node? h = some n ∧
      (t.splice s e).node? h = some n' ∧ n'.kind = n.kind ∧ n'.parent = n.parent ∧
      n'.span = n.span ∧ n'.origin = n.origin ∧ (h ≠ s.parent → n'.parts = n.parts) := by
    intro h hh hrem
    obtain ⟨n, hn⟩ := isValid_iff.mp hh
    exact ⟨n, _, hn, node?_splice_of_kept hwf hs hn hrem, rfl, rfl, rfl, rfl, fun hne => if_neg hne⟩
  constructor
  · intro h n hn hrem
    exact ⟨_, node?_splice_of_kept hwf hs hn hrem, rfl, rfl, rfl, rfl⟩
  · intro h hh hrem
    obtain ⟨n, n', hn, hn', -⟩ := hold h hh hrem
    rw [depth_eq hn, depth_eq hn', ancestors_splice hwf hs hn hrem]
  · intro h hh hrem
    obtain ⟨n, n', hn, hn', -⟩ := hold h hh hrem
    rw [location_eq hn, location_eq hn', spanOf_splice hwf hs hn hrem, source_splice]
  · intro h hh hrem hne
    obtain ⟨n, n', hn, hn', -, -, -, -, hsame⟩ := hold h hh hrem
    rw [children_eq hn, children_eq hn', hsame hne]
  · exact landing_of_seat hs
  · refine ⟨Part.handles s.before, Part.handles s.after, ?_, ?_⟩
    · rw [children_eq hpar, hparts, Part.handles_append, Part.handles_cons_node]
    · rw [children_eq (node?_splice_parent hs)]
      exact congrArg _ (e.handles_newParts s t.nextHandle)
  · intro h hh hrem hne hout
    obtain ⟨n, n', hn, hn', -⟩ := hold h hh hrem
    rw [textOf_eq hn, textOf_eq hn', spelling_splice_of_clear hwf hs hn hrem]
    rintro (heq | hin)
    · exact hne heq.symm
    · exact hout (hwf.descending.mem_ancestors_iff.mpr hin)
  · intro h hh
    exact isValid_iff.mpr (live_of_mem_removed hwf hs hh)
  · exact fun h => isInvalidated_splice_iff hwf hs
  · exact size_splice hwf hs
  · rintro target template rfl
    obtain ⟨pre, post, hb⟩ := hwf.exists_between hpar
    have hbetween := hb.part hpar hparts
    refine ⟨_, _, _, hbetween, textOf_eq hm, ht.render_eq hbetween, ?_⟩
    have hside : ∀ parts, (∀ c ∈ Part.handles parts, c ∈ Part.handles s.before ++ Part.handles s.after) →
        Part.flat (t.splice s (.replace target template)).spelling parts = Part.flat t.spelling parts :=
      fun parts hsub => Part.flat_congr fun c hc => spelling_splice_of_mem_sides hwf hs (hsub c hc)
    rw [ht.render_splice hs hfree hb, Edit.newParts, Part.flat_append, Part.flat_node,
      spelling_splice_new hwf hs rfl (hfree template rfl),
      hside _ fun c hc => List.mem_append_left _ hc, hside _ fun c hc => List.mem_append_right _ hc]
    simp only [List.append_assoc]

/-- Calls are local. On a tree that a consistent one has become by calls without spans, a call that succeeds
changes the children of the parent of its node, its text and those of the nodes around it, and nothing else
of what stays. -/
theorem calls_local (ht : t.WellFormed) (hc : t.SpanConsistent) {before : List Edit}
    (hbefore : ∀ d ∈ before, d.SpanFree) (hfree : e.SpanFree) {next : Tree}
    (happly : e.apply (t.calls before) = .ok next) :
    ∃ p, (t.calls before).parent e.touched = .ok (some p) ∧ (t.calls before).Local p e next := by
  have hfaithful := (hc.faithful ht).calls hbefore
  obtain ⟨s, hs, rfl⟩ := apply_eq_ok_iff.mp happly
  obtain ⟨n, hn, hp⟩ := (seat_spec hs).1
  refine ⟨s.parent, ?_, hfaithful.local_splice hs hfree⟩
  rw [parent_eq hn, hp]

theorem calls_local_pair : ∃ next, otherName.apply (pair.calls [.delete 2]) = .ok next ∧
    (pair.calls [.delete 2]).Local 0 otherName next ∧ next.render = .ofString "(c)" := by
  have hfree : ∀ d ∈ [Edit.delete 2], d.SpanFree := by simp [Edit.spanFree_delete]
  obtain ⟨p, hp, hlocal⟩ :=
    calls_local parsed_pair.wellFormed parsed_pair.spanConsistent hfree spanFree_otherName rfl
  obtain rfl : 0 = p := Option.some.inj (Except.ok.inj hp)
  exact ⟨_, rfl, hlocal, by decide +kernel⟩

end Tree
end LintRepair
