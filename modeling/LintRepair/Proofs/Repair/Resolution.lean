import LintRepair.Proofs.Repair.Selection
import LintRepair.Proofs.Text.Units
import LintRepair.Proofs.Tree.Grafting
import Mathlib.Data.List.Nodup

/-!
# Which violations are taken

The sweep over violations has a closed form: what it takes can be told from the tree, the claims and
the list without going through the sweep. A violation is known here by its place in the list, since
a list may hold the same one twice.
-/
namespace LintRepair

def Split.map {α β : Type} (f : α → β) (split : Split α) : Split β :=
  ⟨split.taken.map f, split.waiting.map f⟩

namespace Tree

variable {t : Tree} {claimed : List Handle} {vs ws : List Violation} {v w : Violation} {i : Nat}
  {x y : Violation × Nat} {split : Split (Violation × Nat)}

theorem takeClear_map {α β : Type} (f : α → β) (touched : β → List Handle) (xs : List α) :
    t.takeClear touched claimed (xs.map f) =
      (t.takeClear (touched ∘ f) claimed xs).map (Split.map f) := by
  induction xs generalizing claimed with
  | nil => rfl
  | cons x rest ih =>
    simp only [List.map_cons, takeClear, Function.comp_apply, ih]
    cases t.claimedBy claimed (touched (f x)) with
    | error _ => rfl
    | ok c =>
      cases c with
      | true => cases t.takeClear (touched ∘ f) claimed rest <;> rfl
      | false => cases t.takeClear (touched ∘ f) (claimed ++ touched (f x)) rest <;> rfl

/-! ## Repair order with places -/

/-- Repair order, and among equals the order of the list. -/
def placedLe (t : Tree) (x y : Violation × Nat) : Bool :=
  List.zipIdxLE (fun v w => (t.candidate v).le (t.candidate w)) x y

/-- The violations in repair order, each with its place in the list. -/
def placedOrder (t : Tree) (vs : List Violation) : List (Violation × Nat) :=
  vs.zipIdx.mergeSort t.placedLe

theorem inRepairOrder_placed (hvs : t.Holds vs) :
    t.inRepairOrder vs = .ok ((t.placedOrder vs).map Prod.fst) := by
  have hsort : (vs.map t.candidate).mergeSort Candidate.le =
      (vs.mergeSort fun v w => (t.candidate v).le (t.candidate w)).map t.candidate :=
    (List.map_mergeSort (f := t.candidate) fun _ _ _ _ => rfl).symm
  rw [inRepairOrder, candidates_eq hvs]
  simp only [bind, Except.bind, pure, Except.pure, hsort, List.map_map]
  rw [← List.mergeSort_zipIdx]
  simp only [List.map_map]
  rfl

theorem mem_placedOrder : x ∈ t.placedOrder vs ↔ vs[x.2]? = some x.1 := by
  rw [placedOrder, List.mem_mergeSort, List.mem_zipIdx_iff_getElem?]

theorem perm_placedOrder (t : Tree) (vs : List Violation) : (t.placedOrder vs).Perm vs.zipIdx :=
  List.mergeSort_perm ..

theorem pairwise_placedOrder (t : Tree) (vs : List Violation) :
    (t.placedOrder vs).Pairwise fun x y => t.placedLe x y = true := by
  have htrans : ∀ x y z, t.placedLe x y = true → t.placedLe y z = true → t.placedLe x z = true :=
    List.zipIdxLE_trans fun _ _ _ => Candidate.le_trans
  have htotal : ∀ x y, (t.placedLe x y || t.placedLe y x) = true :=
    List.zipIdxLE_total fun _ _ => Candidate.le_total _ _
  exact List.pairwise_mergeSort htrans htotal _

theorem not_encloses_of_placedLe (ht : t.Descending) (h : t.placedLe x y = true) :
    ¬ t.Encloses x.1.node y.1.node := by
  intro hin
  have hdepth := ht.length_ancestors_lt hin
  have hle : (t.candidate x.1).le (t.candidate y.1) = true := by
    unfold placedLe List.zipIdxLE at h
    split at h
    · assumption
    · cases h
  rw [Candidate.le_iff] at hle
  simp only [candidate] at hle
  lia

theorem placedLe_iff_of_node_eq (hnode : y.1.node = x.1.node)
    (hstart : y.1.location.start = x.1.location.start) :
    t.placedLe x y = true ↔
      unitsLe x.1.ruleId y.1.ruleId = true ∧ (y.1.ruleId = x.1.ruleId → x.2 ≤ y.2) := by
  have hle : (t.candidate x.1).le (t.candidate y.1) = unitsLe x.1.ruleId y.1.ruleId := by
    simp [Candidate.le, candidate, hnode, hstart]
  have hge : (t.candidate y.1).le (t.candidate x.1) = unitsLe y.1.ruleId x.1.ruleId := by
    simp [Candidate.le, candidate, hnode, hstart]
  simp only [placedLe, List.zipIdxLE, hle, hge]
  cases hxy : unitsLe x.1.ruleId y.1.ruleId with
  | false => simp
  | true =>
    cases hyx : unitsLe y.1.ruleId x.1.ruleId with
    | false =>
      have hne : y.1.ruleId ≠ x.1.ruleId := by
        intro h
        rw [h, unitsLe_refl] at hyx
        cases hyx
      simp [hne]
    | true => simp [unitsLe_antisymm hyx hxy]

/-! ## The violations that are taken -/

/-- Nothing claimed is in the violation's way, no violation of the list flags a node inside its
node, and none on its node has a smaller rule id. -/
structure Leading (t : Tree) (claimed : List Handle) (vs : List Violation) (v : Violation) :
    Prop where
  clear : ∀ c ∈ claimed, ¬ t.Overlaps c v.node
  innermost : ∀ w ∈ vs, ¬ t.Encloses v.node w.node
  least : ∀ w ∈ vs, w.node = v.node → unitsLe v.ruleId w.ruleId = true

/-- Moreover the violation in place `i` is the first of its rule on its node. -/
structure Foremost (t : Tree) (claimed : List Handle) (vs : List Violation) (v : Violation)
    (i : Nat) : Prop extends t.Leading claimed vs v where
  earliest : ∀ w j, vs[j]? = some w → w.node = v.node → w.ruleId = v.ruleId → i ≤ j

/-- A sweep through the violations in repair order, each with its place. -/
abbrev SweptPlaces (t : Tree) (claimed : List Handle) (vs : List Violation)
    (split : Split (Violation × Nat)) : Prop :=
  t.Swept (fun x : Violation × Nat => [x.1.node]) claimed (t.placedOrder vs) split

theorem exists_sweptPlaces (ht : t.Descending) (hclaimed : t.AllLive claimed)
    (hvs : t.Holds vs) :
    ∃ split, t.resolveConflicts vs claimed = .ok (split.map Prod.fst) ∧
      (split.taken ++ split.waiting).Perm (t.placedOrder vs) ∧
      t.SweptPlaces claimed vs split := by
  have hlive : ∀ x ∈ t.placedOrder vs, t.AllLive [x.1.node] := by
    intro x hx h hh
    rw [List.mem_singleton.mp hh]
    exact hvs x.1 (List.mem_of_getElem? (mem_placedOrder.mp hx))
  obtain ⟨split, hsplit, hswept⟩ := takeClear_spec ht hclaimed hlive
  refine ⟨split, ?_, perm_takeClear hsplit, hswept⟩
  simp only [resolveConflicts, inRepairOrder_placed hvs, bind, Except.bind, takeClear_map]
  exact congrArg (Except.map (Split.map Prod.fst)) hsplit

namespace SweptPlaces

variable (hs : t.SweptPlaces claimed vs split)
include hs

theorem clear_node (hx : x ∈ split.taken) : ∀ c ∈ claimed, ¬ t.Overlaps c x.1.node :=
  fun c hc h => hs.clear x hx ⟨c, hc, x.1.node, List.mem_cons_self, h⟩

theorem apart_nodes : split.taken.Pairwise fun x y => ¬ t.Overlaps x.1.node y.1.node :=
  hs.apart.imp fun h ho => h ⟨_, List.mem_cons_self, _, List.mem_cons_self, ho⟩

theorem blocked_node (hy : y ∈ split.waiting) : (∃ c ∈ claimed, t.Overlaps c y.1.node) ∨
    ∃ x ∈ split.taken, [x, y].Sublist (t.placedOrder vs) ∧ t.Overlaps x.1.node y.1.node := by
  rcases hs.blocked y hy with ⟨c, hc, n, hn, h⟩ | ⟨x, hx, hsub, a, ha, b, hb, h⟩
  · rw [List.mem_singleton.mp hn] at h
    exact .inl ⟨c, hc, h⟩
  · rw [List.mem_singleton.mp ha, List.mem_singleton.mp hb] at h
    exact .inr ⟨x, hx, hsub, h⟩

theorem apart_of_ne (hx : x ∈ split.taken) (hy : y ∈ split.taken) (hne : x ≠ y) :
    ¬ t.Overlaps x.1.node y.1.node := by
  have : Std.Symm fun x y : Violation × Nat => ¬ t.Overlaps x.1.node y.1.node :=
    ⟨fun _ _ h ho => h (overlaps_comm.mp ho)⟩
  exact hs.apart_nodes.forall hx hy hne

/-- What is taken comes before everything else on its node and inside. -/
theorem placedLe_of_covers (hperm : (split.taken ++ split.waiting).Perm (t.placedOrder vs))
    (hx : x ∈ split.taken) (hy : y ∈ t.placedOrder vs) (hne : x ≠ y)
    (hin : t.Covers x.1.node y.1.node) : t.placedLe x y = true := by
  rcases List.mem_append.mp (hperm.symm.subset hy) with hy | hy
  · exact absurd (.inl hin) (hs.apart_of_ne hx hy hne)
  · rcases hs.blocked_node hy with ⟨c, hc, ho⟩ | ⟨z, hz, hsub, ho⟩
    · exact absurd (ho.widen hin) (hs.clear_node hx c hc)
    · by_cases hzx : z = x
      · subst hzx
        exact (pairwise_placedOrder t vs).forall_sublist hsub
      · exact absurd (ho.widen hin) (hs.apart_of_ne hz hx hzx)

theorem foremost (ht : t.Descending) (hvs : t.Consistent vs)
    (hperm : (split.taken ++ split.waiting).Perm (t.placedOrder vs)) (hx : x ∈ split.taken) :
    t.Foremost claimed vs x.1 x.2 := by
  have hplace := mem_placedOrder.mp (hperm.subset (List.mem_append_left _ hx))
  have hfirst : ∀ w j, vs[j]? = some w → w.node = x.1.node →
      unitsLe x.1.ruleId w.ruleId = true ∧ (w.ruleId = x.1.ruleId → x.2 ≤ j) := by
    intro w j hw hnode
    by_cases hne : x = (w, j)
    · subst hne
      exact ⟨unitsLe_refl _, fun _ => Nat.le_refl _⟩
    · have hle := hs.placedLe_of_covers hperm hx (mem_placedOrder.mpr hw) hne (.inl hnode)
      have hstart := hvs.start_eq _ (List.mem_of_getElem? hplace) _ (List.mem_of_getElem? hw) hnode
      exact (placedLe_iff_of_node_eq hnode hstart).mp hle
  refine ⟨⟨hs.clear_node hx, ?_, ?_⟩, fun w j hw hnode => (hfirst w j hw hnode).2⟩
  · intro w hw hin
    obtain ⟨j, hj⟩ := List.getElem?_of_mem hw
    have hne : x ≠ (w, j) := by
      rintro rfl
      exact ht.not_encloses_of_covers (t.covers_refl _) hin
    have hle := hs.placedLe_of_covers hperm hx (mem_placedOrder.mpr hj) hne (.inr hin)
    exact not_encloses_of_placedLe ht hle hin
  · intro w hw hnode
    obtain ⟨j, hj⟩ := List.getElem?_of_mem hw
    exact (hfirst w j hj hnode).1

theorem taken_of_foremost (ht : t.Descending) (hvs : t.Consistent vs)
    (hperm : (split.taken ++ split.waiting).Perm (t.placedOrder vs)) (hx : x ∈ t.placedOrder vs)
    (hfore : t.Foremost claimed vs x.1 x.2) : x ∈ split.taken := by
  rcases List.mem_append.mp (hperm.symm.subset hx) with htaken | hwaits
  · exact htaken
  rcases hs.blocked_node hwaits with ⟨c, hc, ho⟩ | ⟨z, hz, hsub, ho⟩
  · exact absurd ho (hfore.clear c hc)
  have hzplace := mem_placedOrder.mp (hsub.subset List.mem_cons_self)
  have hxplace := mem_placedOrder.mp hx
  have hzmem := List.mem_of_getElem? hzplace
  have hle := (pairwise_placedOrder t vs).forall_sublist hsub
  -- On one node both come first, so they are one violation.
  have hsame : z.1.node = x.1.node → x ∈ split.taken := by
    intro hnode
    have hstart := hvs.start_eq _ hzmem _ (List.mem_of_getElem? hxplace) hnode.symm
    obtain ⟨hid, hindex⟩ := (placedLe_iff_of_node_eq hnode.symm hstart).mp hle
    have hid : z.1.ruleId = x.1.ruleId := unitsLe_antisymm hid (hfore.least _ hzmem hnode)
    have hindex : z.2 = x.2 :=
      Nat.le_antisymm (hindex hid.symm) (hfore.earliest _ _ hzplace hnode hid)
    rw [hindex, hxplace] at hzplace
    have hzx : z = x := Prod.ext (Option.some.inj hzplace).symm hindex
    exact hzx ▸ hz
  rcases ho with (hnode | hin) | (hnode | hin)
  · exact hsame hnode.symm
  · exact absurd hin (not_encloses_of_placedLe ht hle)
  · exact hsame hnode
  · exact absurd hin (hfore.innermost _ hzmem)

end SweptPlaces

theorem Leading.of_perm (h : t.Leading claimed vs v) (hperm : ws.Perm vs) :
    t.Leading claimed ws v where
  clear := h.clear
  innermost w hw := h.innermost w (hperm.subset hw)
  least w hw := h.least w (hperm.subset hw)

theorem Leading.foremost (h : t.Leading claimed vs v) (hv : vs[i]? = some v)
    (hkeys : (vs.map fun v => (v.ruleId, v.node)).Nodup) : t.Foremost claimed vs v i := by
  refine ⟨h, fun w j hw hnode hid => Nat.le_of_eq ?_⟩
  have hi : i < (vs.map fun v => (v.ruleId, v.node)).length := by
    rw [List.length_map]
    exact (List.getElem?_eq_some_iff.mp hv).1
  apply (List.getElem?_inj hi hkeys).mp
  simp only [List.getElem?_map, hv, hw, Option.map_some, hnode, hid]

/-- A sweep that takes the foremost violations, each in its place, takes the leading ones where no
rule flags a node twice. -/
theorem mem_taken_iff (hkeys : (vs.map fun v => (v.ruleId, v.node)).Nodup)
    (hperm : (split.taken ++ split.waiting).Perm vs.zipIdx)
    (htaken : ∀ x ∈ vs.zipIdx, x ∈ split.taken ↔ t.Foremost claimed vs x.1 x.2) :
    v ∈ split.taken.map Prod.fst ↔ v ∈ vs ∧ t.Leading claimed vs v := by
  constructor
  · intro hv
    obtain ⟨x, hx, rfl⟩ := List.mem_map.mp hv
    have hplace := hperm.subset (List.mem_append_left _ hx)
    have hmem := List.mem_of_getElem? (List.mem_zipIdx_iff_getElem?.mp hplace)
    exact ⟨hmem, ((htaken x hplace).mp hx).toLeading⟩
  · rintro ⟨hv, hlead⟩
    obtain ⟨i, hi⟩ := List.getElem?_of_mem hv
    have hplace : (v, i) ∈ vs.zipIdx := List.mem_zipIdx_iff_getElem?.mpr hi
    have htook := (htaken (v, i) hplace).mpr (hlead.foremost hi hkeys)
    exact List.mem_map.mpr ⟨(v, i), htook, rfl⟩

/-- The order of the violations plays no part where no rule flags a node twice. -/
theorem perm_taken (hkeys : (vs.map fun v => (v.ruleId, v.node)).Nodup) (hws : ws.Perm vs)
    {split' : Split (Violation × Nat)}
    (hperm : (split.taken ++ split.waiting).Perm vs.zipIdx)
    (hperm' : (split'.taken ++ split'.waiting).Perm ws.zipIdx)
    (htaken : ∀ x ∈ vs.zipIdx, x ∈ split.taken ↔ t.Foremost claimed vs x.1 x.2)
    (htaken' : ∀ x ∈ ws.zipIdx, x ∈ split'.taken ↔ t.Foremost claimed ws x.1 x.2) :
    (split'.taken.map Prod.fst).Perm (split.taken.map Prod.fst) := by
  have hnodup : ∀ {us : List Violation} {s : Split (Violation × Nat)},
      (us.map fun v => (v.ruleId, v.node)).Nodup → (s.taken ++ s.waiting).Perm us.zipIdx →
        (s.taken.map Prod.fst).Nodup := by
    intro us s hus hs
    have hmap := hs.map Prod.fst
    rw [List.zipIdx_map_fst, List.map_append] at hmap
    exact (hmap.symm.nodup (List.Nodup.of_map _ hus)).sublist (List.sublist_append_left ..)
  have hkeys' := (hws.map fun v => (v.ruleId, v.node)).symm.nodup hkeys
  rw [List.perm_ext_iff_of_nodup (hnodup hkeys' hperm') (hnodup hkeys hperm)]
  intro v
  rw [mem_taken_iff hkeys' hperm' htaken', mem_taken_iff hkeys hperm htaken]
  constructor
  · rintro ⟨hv, hlead⟩
    exact ⟨hws.subset hv, hlead.of_perm hws.symm⟩
  · rintro ⟨hv, hlead⟩
    exact ⟨hws.symm.subset hv, hlead.of_perm hws⟩

theorem exists_foremost (ht : t.WellFormed) (hclaimed : t.AllLive claimed)
    (hvs : ∀ v ∈ vs, t.location v.node = .ok v.location) :
    ∃ split : Split (Violation × Nat),
      t.resolveConflicts vs claimed = .ok (split.map Prod.fst) ∧
      (split.taken ++ split.waiting).Perm vs.zipIdx ∧
      (∀ x ∈ vs.zipIdx, x ∈ split.taken ↔ t.Foremost claimed vs x.1 x.2) ∧
      t.SweptPlaces claimed vs split := by
  have hcons := consistent_of_location hvs
  obtain ⟨split, hsplit, hperm, hs⟩ := exists_sweptPlaces ht.descending hclaimed hcons.live
  refine ⟨split, hsplit, hperm.trans (perm_placedOrder t vs), fun x hx => ⟨?_, ?_⟩, hs⟩
  · exact hs.foremost ht.descending hcons hperm
  · exact hs.taken_of_foremost ht.descending hcons hperm ((perm_placedOrder t vs).symm.subset hx)

/-- A violation is taken exactly if it is the foremost of its place, and every other one waits. So
what is taken lies apart, what waits is in the way of something, and the order of the list does not
matter unless a rule flags a node twice. -/
theorem resolveConflicts_foremost (ht : t.WellFormed) (hclaimed : t.AllLive claimed)
    (hvs : ∀ v ∈ vs, t.location v.node = .ok v.location) :
    ∃ split : Split (Violation × Nat),
      t.resolveConflicts vs claimed = .ok (split.map Prod.fst) ∧
      (split.taken ++ split.waiting).Perm vs.zipIdx ∧
      (∀ x ∈ vs.zipIdx, x ∈ split.taken ↔ t.Foremost claimed vs x.1 x.2) ∧
      (split.taken.Pairwise fun x y => ¬ t.Overlaps x.1.node y.1.node) ∧
      (∀ y ∈ split.waiting, (∃ c ∈ claimed, t.Overlaps c y.1.node) ∨
        ∃ x ∈ split.taken, t.Overlaps x.1.node y.1.node) ∧
      ((vs.map fun v => (v.ruleId, v.node)).Nodup → ∀ ws, ws.Perm vs →
        ∃ split' : Split Violation, t.resolveConflicts ws claimed = .ok split' ∧
          split'.taken.Perm (split.taken.map Prod.fst)) := by
  obtain ⟨split, hsplit, hperm, htaken, hs⟩ := exists_foremost ht hclaimed hvs
  refine ⟨split, hsplit, hperm, htaken, hs.apart_nodes, ?_, ?_⟩
  · intro y hy
    exact (hs.blocked_node hy).imp_right fun ⟨x, hx, _, ho⟩ => ⟨x, hx, ho⟩
  · intro hkeys ws hws
    have hws' : ∀ w ∈ ws, t.location w.node = .ok w.location := fun w hw => hvs w (hws.subset hw)
    obtain ⟨split', hsplit', hperm', htaken', -⟩ := exists_foremost ht hclaimed hws'
    exact ⟨_, hsplit', perm_taken hkeys hws hperm hperm' htaken htaken'⟩

/-- A node with two children. -/
def forkedTree : Tree :=
  .ofTemplate "f" [] ⟨"a", none, none, .node "b" none none .nil (.node "c" none none .nil .nil)⟩

/-- Two rules flag the first child and one of them its parent, too. -/
def forkedViolations : List Violation :=
  [⟨"r", "f", 0, "a", "m", .warning, ⟨1, 1, 0, 0⟩⟩, ⟨"s", "f", 1, "b", "m", .warning, ⟨1, 1, 0, 0⟩⟩,
    ⟨"r", "f", 1, "b", "m", .warning, ⟨1, 1, 0, 0⟩⟩]

theorem resolveConflicts_foremost_forked :
    forkedTree.WellFormed ∧ forkedTree.AllLive [2] ∧
    (∀ v ∈ forkedViolations, forkedTree.location v.node = .ok v.location) ∧
    ∃ split : Split (Violation × Nat),
      forkedTree.resolveConflicts forkedViolations [2] = .ok (split.map Prod.fst) ∧
      ∀ x ∈ forkedViolations.zipIdx,
        x ∈ split.taken ↔ forkedTree.Foremost [2] forkedViolations x.1 x.2 := by
  have ht : forkedTree.WellFormed := wellFormed_ofTemplate ..
  have hclaimed : forkedTree.AllLive [2] := by
    intro h hh
    rw [List.mem_singleton.mp hh]
    exact ⟨_, rfl⟩
  have hvs : ∀ v ∈ forkedViolations, forkedTree.location v.node = .ok v.location := by
    have hloc : ∀ v ∈ forkedViolations, (forkedTree.node? v.node).isSome ∧
        forkedTree.source.location (forkedTree.spanOf v.node) = v.location := by
      decide +kernel
    intro v hv
    obtain ⟨n, hn⟩ := Option.isSome_iff_exists.mp (hloc v hv).1
    rw [location_eq hn, (hloc v hv).2]
  obtain ⟨split, hsplit, -, htaken, -⟩ := resolveConflicts_foremost ht hclaimed hvs
  exact ⟨ht, hclaimed, hvs, split, hsplit, htaken⟩

end Tree
end LintRepair
