import LintRepair.Tree.Edit
import Mathlib.Data.List.Nodup

/-!
# What the slots hold

The view of a tree is the live node of each handle. Each primitive change is described by what it
does to that view, and nothing after this module looks at slots again.
-/
namespace LintRepair.Tree

variable {t : Tree} {h k : Handle}

theorem node?_of_neg (hk : k < 0) : t.node? k = none := if_pos hk

theorem node?_of_nonneg (hk : 0 ≤ k) : t.node? k = (t.slots[k.toNat]?).join :=
  if_neg (by lia)

theorem lt_nextHandle_of_node? {n : Node} (hn : t.node? k = some n) : 0 ≤ k ∧ k < t.nextHandle := by
  have hk : 0 ≤ k := by
    by_contra hneg
    rw [node?_of_neg (by lia)] at hn
    cases hn
  rw [node?_of_nonneg hk] at hn
  have hlt : k.toNat < t.slots.size := by
    by_contra hge
    rw [Array.getElem?_eq_none (by lia)] at hn
    cases hn
  exact ⟨hk, by simp only [nextHandle]; lia⟩

theorem node?_of_nextHandle_le (hk : t.nextHandle ≤ k) : t.node? k = none := by
  cases hn : t.node? k with
  | none => rfl
  | some n => have := (lt_nextHandle_of_node? hn).2; lia

@[simp] theorem nextHandle_setNode (x : Option Node) :
    (t.setNode h x).nextHandle = t.nextHandle := by
  simp [nextHandle, setNode]

theorem node?_setNode_ne (hh : 0 ≤ h) (x : Option Node) (hk : k ≠ h) :
    (t.setNode h x).node? k = t.node? k := by
  by_cases hneg : k < 0
  · rw [node?_of_neg hneg, node?_of_neg hneg]
  · rw [node?_of_nonneg (by lia), node?_of_nonneg (by lia), setNode,
      Array.getElem?_setIfInBounds_ne (by lia)]

theorem node?_setNode_self (hh : 0 ≤ h) (hl : h < t.nextHandle) (x : Option Node) :
    (t.setNode h x).node? h = x := by
  have hlt : h.toNat < t.slots.size := by simp only [nextHandle] at hl; lia
  rw [node?_of_nonneg hh, setNode, Array.getElem?_setIfInBounds_self_of_lt hlt]
  rfl

theorem node?_setNode_none (hh : 0 ≤ h) :
    (t.setNode h none).node? k = if k = h then none else t.node? k := by
  by_cases hk : k = h
  · subst hk
    by_cases hl : k < t.nextHandle
    · rw [node?_setNode_self hh hl, if_pos rfl]
    · rw [node?_of_nextHandle_le (by rw [nextHandle_setNode]; lia), if_pos rfl]
  · rw [node?_setNode_ne hh _ hk, if_neg hk]

@[simp] theorem nextHandle_eraseAll (hs : List Handle) :
    (t.eraseAll hs).nextHandle = t.nextHandle := by
  induction hs generalizing t with
  | nil => rfl
  | cons h hs ih => exact (ih (t := t.setNode h none)).trans (nextHandle_setNode none)

theorem node?_eraseAll {hs : List Handle} (hpos : ∀ h ∈ hs, 0 ≤ h) :
    (t.eraseAll hs).node? k = if k ∈ hs then none else t.node? k := by
  induction hs generalizing t with
  | nil => simp [eraseAll]
  | cons h hs ih =>
    have hrest := ih (t := t.setNode h none) fun x hx => hpos x (List.mem_cons_of_mem _ hx)
    rw [node?_setNode_none (hpos h List.mem_cons_self)] at hrest
    refine hrest.trans ?_
    by_cases hk : k = h <;> by_cases hm : k ∈ hs <;> simp [hk, hm]

/-- The node with the mark of a change. -/
def markIf (marked : Bool) (n : Node) : Node := { n with dirty := n.dirty || marked }

@[simp] theorem nextHandle_markDirty : (t.markDirty h).nextHandle = t.nextHandle := by
  unfold markDirty
  split
  · exact nextHandle_setNode _
  · rfl

theorem node?_markDirty :
    (t.markDirty h).node? k = (t.node? k).map (markIf (decide (k = h))) := by
  unfold markDirty
  split
  · next n hn =>
    obtain ⟨hpos, hlt⟩ := lt_nextHandle_of_node? hn
    by_cases hk : k = h
    · subst hk
      rw [node?_setNode_self hpos hlt, hn]
      simp [markIf]
    · rw [node?_setNode_ne hpos _ hk]
      cases t.node? k <;> simp [markIf, hk]
  · next hn =>
    by_cases hk : k = h
    · subst hk
      rw [hn]
      rfl
    · cases t.node? k <;> simp [markIf, hk]

@[simp] theorem nextHandle_foldl_markDirty (hs : List Handle) :
    (hs.foldl markDirty t).nextHandle = t.nextHandle := by
  induction hs generalizing t with
  | nil => rfl
  | cons h hs ih => exact ih.trans nextHandle_markDirty

theorem node?_foldl_markDirty (hs : List Handle) :
    (hs.foldl markDirty t).node? k = (t.node? k).map (markIf (decide (k ∈ hs))) := by
  induction hs generalizing t with
  | nil => cases h : t.node? k <;> simp [h, markIf]
  | cons h hs ih =>
    rw [List.foldl_cons, ih, node?_markDirty]
    cases t.node? k with
    | none => rfl
    | some n =>
      by_cases hk : k = h <;> by_cases hm : k ∈ hs <;> simp [markIf, hk, hm]

@[simp] theorem nextHandle_graft (template : Template) (parent : Handle) :
    (t.graft template parent).nextHandle = t.nextHandle + template.count := by
  simp [nextHandle, graft, Template.length_arena]

theorem node?_graft_of_lt (template : Template) (parent : Handle) (hk : k < t.nextHandle) :
    (t.graft template parent).node? k = t.node? k := by
  by_cases hneg : k < 0
  · rw [node?_of_neg hneg, node?_of_neg hneg]
  · have hlt : k.toNat < t.slots.size := by simp only [nextHandle] at hk; lia
    rw [node?_of_nonneg (by lia), node?_of_nonneg (by lia), graft,
      Array.getElem?_append_left hlt]

theorem node?_graft_new (template : Template) (parent : Handle) (i : Nat) :
    (t.graft template parent).node? (t.nextHandle + i) =
      (template.arena (some parent) t.slots.size)[i]? := by
  rw [node?_of_nonneg (by simp only [nextHandle]; lia), graft,
    Array.getElem?_append_right (by simp only [nextHandle]; lia)]
  have hi : (t.nextHandle + (i : Int)).toNat - t.slots.size = i := by simp only [nextHandle]; lia
  simp only [hi, List.getElem?_toArray, List.getElem?_map]
  cases (template.arena (some parent) t.slots.size)[i]? <;> rfl

theorem node?_ofTemplate (file : String) (source : Text) (template : Template) (i : Nat) :
    (ofTemplate file source template).node? i = (template.arena none 0)[i]? := by
  rw [node?_of_nonneg (by lia), ofTemplate]
  simp only [Int.toNat_natCast, List.getElem?_toArray, List.getElem?_map]
  cases (template.arena none 0)[i]? <;> rfl

theorem getElem?_arena_of_node? {file : String} {source : Text} {template : Template} {n : Node}
    (hn : (ofTemplate file source template).node? h = some n) :
    0 ≤ h ∧ (template.arena none 0)[h.toNat]? = some n := by
  have hpos := (lt_nextHandle_of_node? hn).1
  refine ⟨hpos, ?_⟩
  rw [← node?_ofTemplate file source, Int.toNat_of_nonneg hpos, hn]

theorem dirty_of_mem_arena {pieces : Pieces} {parent : Handle} {next : Nat} {n : Node}
    (hn : n ∈ (pieces.arena parent next).2) : n.dirty = false := by
  induction pieces generalizing parent next with
  | nil => exact absurd hn List.not_mem_nil
  | text t rest ih => exact ih hn
  | node kind span origin body rest ihBody ihRest =>
    simp only [Pieces.arena, List.cons_append, List.mem_cons, List.mem_append] at hn
    rcases hn with rfl | hn | hn
    · rfl
    · exact ihBody hn
    · exact ihRest hn

theorem dirty_ofTemplate {file : String} {source : Text} {template : Template} {n : Node}
    (hn : (ofTemplate file source template).node? h = some n) : n.dirty = false := by
  obtain ⟨-, hget⟩ := getElem?_arena_of_node? hn
  rw [Template.arena] at hget
  rcases List.mem_cons.mp (List.mem_of_getElem? hget) with rfl | hbelow
  · rfl
  · exact dirty_of_mem_arena hbelow

@[simp] theorem nextHandle_ofTemplate (file : String) (source : Text) (template : Template) :
    (ofTemplate file source template).nextHandle = template.count := by
  simp [nextHandle, ofTemplate, Template.length_arena]

theorem isValid_iff : t.isValid h = true ↔ ∃ n, t.node? h = some n := by
  simp [isValid, Option.isSome_iff_exists]

theorem isInvalidated_iff :
    t.isInvalidated h = true ↔ (0 ≤ h ∧ h < t.nextHandle) ∧ ¬ ∃ n, t.node? h = some n := by
  rw [← isValid_iff]
  simp only [isInvalidated, nextHandle, Bool.and_eq_true, decide_eq_true_eq, Bool.not_eq_true']
  constructor
  · rintro ⟨⟨hpos, hlt⟩, hv⟩
    exact ⟨⟨hpos, by lia⟩, by simp [hv]⟩
  · rintro ⟨⟨hpos, hlt⟩, hv⟩
    exact ⟨⟨hpos, by lia⟩, by simpa using hv⟩

theorem get_eq_ok_iff {n : Node} : t.get h = .ok n ↔ t.node? h = some n := by
  unfold get
  split <;> simp_all

theorem get_of_node?_eq_none (hn : t.node? h = none) : t.get h = .error (.invalidHandle h) := by
  simp [get, hn]

end LintRepair.Tree
