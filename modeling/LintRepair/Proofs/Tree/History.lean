import LintRepair.Proofs.Tree.Preservation
import Mathlib.Data.List.Count

/-!
# Histories of a tree

A tree together with the handles that were handed out and those that were taken back since it was
made. `History.sound_run` states what holds after any sequence of calls.
-/
namespace LintRepair

/-- The handles that grafting hands out: that of the template's root and those its nodes list. -/
def Template.issued (template : Template) (next : Nat) : List Handle :=
  (next : Handle) :: (template.arena none next).flatMap fun n => Part.handles n.parts

private theorem perm_issued_pieces (p : Pieces) (parent : Handle) (next : Nat) :
    (Part.handles (p.arena parent next).1 ++
      (p.arena parent next).2.flatMap fun n => Part.handles n.parts).Perm
      ((List.range' next p.count).map Int.ofNat) := by
  induction p generalizing parent next with
  | nil => exact .nil
  | text s rest ih => exact ih parent next
  | node kind span origin body rest ihb ihr =>
    have hbody := ihb next (next + 1)
    have hrest := ihr parent (next + 1 + body.count)
    have hrange : List.range' next (body.count + 1 + rest.count) =
        next :: (List.range' (next + 1) body.count ++
          List.range' (next + 1 + body.count) rest.count) := by
      rw [List.range'_append_1, ← List.range'_succ]
      congr 1
      lia
    simp only [Pieces.arena, Pieces.count, Pieces.length_arena, Part.handles_cons_node,
      List.flatMap_cons, List.flatMap_append, List.cons_append, Part.handles_normalize, hrange,
      List.map_cons, List.map_append]
    refine List.Perm.cons _ (List.Perm.trans ?_ (hbody.append hrest))
    refine (List.perm_append_comm_assoc _ _ _).trans ?_
    rw [List.append_assoc]
    refine List.Perm.append_left _ ?_
    exact List.perm_append_comm_assoc _ _ _

theorem Template.perm_issued (template : Template) (next : Nat) :
    (template.issued next).Perm ((List.range' next template.count).map Int.ofNat) := by
  have hbody := perm_issued_pieces template.body next (next + 1)
  rw [issued, arena, List.flatMap_cons, Part.handles_normalize, count, List.range'_succ]
  exact hbody.cons _

/-- A tree with its past: the handles handed out and those taken back, in order. -/
structure History where
  tree : Tree
  issued : List Handle
  retired : List Handle

namespace History

variable {x : History} {e : Edit} {h : Handle}

def ofTemplate (file : String) (source : Text) (template : Template) : History :=
  ⟨Tree.ofTemplate file source template, template.issued 0, []⟩

/-- Makes a call; one that fails leaves everything as it is. -/
def call (x : History) (e : Edit) : History :=
  match e.apply x.tree with
  | .ok next =>
    { tree := next
      issued := x.issued ++ e.subtree?.elim [] (·.issued x.tree.slots.size)
      retired := x.retired ++ e.removed x.tree }
  | .error _ => x

def run (x : History) (calls : List Edit) : History := calls.foldl call x

/-- What one call preserves. -/
structure Kept (x : History) : Prop where
  wellFormed : x.tree.WellFormed
  perm_issued : x.issued.Perm ((List.range x.tree.slots.size).map Int.ofNat)
  retired_nodup : x.retired.Nodup
  mem_retired : ∀ h, h ∈ x.retired ↔ x.tree.isInvalidated h = true

theorem kept_ofTemplate (file : String) (source : Text) (template : Template) :
    (ofTemplate file source template).Kept := by
  have hsize : (Tree.ofTemplate file source template).slots.size = template.count := by
    simp [Tree.ofTemplate, Template.length_arena]
  refine ⟨Tree.wellFormed_ofTemplate file source template, ?_, List.nodup_nil, ?_⟩
  · have hperm := template.perm_issued 0
    rwa [← List.range_eq_range', ← hsize] at hperm
  · intro h
    rw [Tree.isInvalidated_iff]
    refine ⟨fun hm => absurd hm List.not_mem_nil, ?_⟩
    rintro ⟨⟨hpos, hlt⟩, hdead⟩
    rw [ofTemplate, Tree.nextHandle_ofTemplate, ← template.length_arena none 0] at hlt
    refine absurd ?_ hdead
    have hh : h = ((h.toNat : Nat) : Int) := by lia
    have hget := Tree.node?_ofTemplate file source template h.toNat
    rw [← hh, List.getElem?_eq_getElem (by lia)] at hget
    exact ⟨_, hget⟩

theorem Kept.call (hx : x.Kept) (e : Edit) : (x.call e).Kept := by
  unfold History.call
  split
  · next next happly =>
    obtain ⟨s, hs, rfl⟩ := Tree.apply_eq_ok_iff.mp happly
    have ht := hx.wellFormed
    have hnext := Tree.nextHandle_splice x.tree s e
    refine ⟨Tree.wellFormed_splice ht hs, ?_, ?_, ?_⟩
    · have hsize : (x.tree.splice s e).slots.size =
          x.tree.slots.size + e.subtree?.elim 0 Template.count := by
        simp only [Tree.nextHandle] at hnext
        lia
      rw [hsize, List.range_eq_range', ← List.range'_append_1, Nat.zero_add,
        ← List.range_eq_range', List.map_append]
      refine hx.perm_issued.append ?_
      cases e.subtree? with
      | none => exact .nil
      | some template => exact template.perm_issued x.tree.slots.size
    · rw [List.nodup_append]
      refine ⟨hx.retired_nodup, Tree.nodup_removed ht, ?_⟩
      rintro a ha b hb rfl
      exact (Tree.isInvalidated_iff.mp ((hx.mem_retired a).mp ha)).2
        (Tree.live_of_mem_removed ht hs hb)
    · intro h
      rw [List.mem_append, hx.mem_retired, Tree.isInvalidated_splice_iff ht hs]
  · exact hx

theorem Kept.run (hx : x.Kept) (calls : List Edit) : (x.run calls).Kept := by
  induction calls generalizing x with
  | nil => exact hx
  | cons e rest ih => exact ih (hx.call e)

/-- What every history guarantees: about handles, links, walks, literal text and marks of change. -/
structure Sound (x : History) : Prop where
  issued_nodup : x.issued.Nodup
  mem_issued : ∀ h, h ∈ x.issued ↔ 0 ≤ h ∧ h < x.tree.nextHandle
  live_issued : ∀ h, x.tree.isValid h = true → h ∈ x.issued
  live_or_invalidated : ∀ h ∈ x.issued, x.tree.isInvalidated h = !x.tree.isValid h
  retired_nodup : x.retired.Nodup
  mem_retired : ∀ h, h ∈ x.retired ↔ x.tree.isInvalidated h = true
  /-- A node below the root stands once among the parts of its parent and in no other node's. -/
  listed_once : ∀ h n, x.tree.node? h = some n → h ≠ Tree.root →
    ∃ p m, n.parent = some p ∧ x.tree.node? p = some m ∧ (Part.handles m.parts).count h = 1 ∧
      ∀ q k, x.tree.node? q = some k → h ∈ Part.handles k.parts → q = p
  listed_live : ∀ q k h, x.tree.node? q = some k → h ∈ Part.handles k.parts →
    x.tree.isValid h = true
  root_live : x.tree.isValid Tree.root = true
  orphan_iff : ∀ h n, x.tree.node? h = some n → (n.parent = none ↔ h = Tree.root)
  parent_lt : ∀ h n p, x.tree.node? h = some n → n.parent = some p → p < h
  chain_ends : ∀ h, x.tree.isValid h = true → h ≠ Tree.root →
    (x.tree.ancestors h).getLast? = some Tree.root
  /-- A walk from the root meets every live node exactly once. -/
  visit_root : ∃ visits, x.tree.visit (fun _ => false) Tree.root = .ok visits ∧
    (visits.map (·.handle)).Nodup ∧
    (∀ h, h ∈ visits.map (·.handle) ↔ x.tree.isValid h = true) ∧ visits.length = x.tree.size
  no_empty_text : ∀ h n, x.tree.node? h = some n → .text [] ∉ n.parts
  no_adjacent_texts : ∀ h n, x.tree.node? h = some n →
    ¬ ∃ before a b after, n.parts = before ++ .text a :: .text b :: after
  dirty_ancestors : ∀ h n, x.tree.node? h = some n → n.dirty = true →
    ∀ a ∈ x.tree.ancestors h, ∃ m, x.tree.node? a = some m ∧ m.dirty = true

theorem Kept.sound (hx : x.Kept) : x.Sound := by
  have ht := hx.wellFormed
  have hmem : ∀ h, h ∈ x.issued ↔ 0 ≤ h ∧ h < x.tree.nextHandle := by
    intro h
    rw [hx.perm_issued.mem_iff, List.mem_map, Tree.nextHandle]
    constructor
    · rintro ⟨i, hi, rfl⟩
      rw [List.mem_range] at hi
      exact ⟨by lia, by lia⟩
    · rintro ⟨hpos, hlt⟩
      exact ⟨h.toNat, List.mem_range.mpr (by lia), Int.toNat_of_nonneg hpos⟩
  constructor
  · exact hx.perm_issued.nodup_iff.mpr (List.nodup_range.map fun i j hij => Int.ofNat.inj hij)
  · exact hmem
  · intro h hv
    obtain ⟨n, hn⟩ := Tree.isValid_iff.mp hv
    exact (hmem h).mpr (Tree.lt_nextHandle_of_node? hn)
  · intro h hh
    have hbound := (hmem h).mp hh
    rw [Bool.eq_iff_iff, Tree.isInvalidated_iff, and_iff_right hbound, ← Tree.isValid_iff]
    simp
  · exact hx.retired_nodup
  · exact hx.mem_retired
  · intro h n hn hr
    obtain ⟨p, hp, hpar⟩ := ht.exists_parent hn hr
    obtain ⟨m, hm, hmem⟩ := ht.listed p h hpar
    refine ⟨p, m, hp, hm, List.count_eq_one_of_mem (ht.handles_nodup p m hm) hmem, ?_⟩
    intro q k hk hq
    exact (ht.adopted q k h hk hq).unique hpar
  · intro q k h hk hh
    exact Tree.isValid_iff.mpr (ht.adopted q k h hk hh).inner_live
  · exact Tree.isValid_iff.mpr ht.root_live
  · exact ht.orphan_iff
  · intro h n p hn hp
    exact (ht.descending p h ⟨n, hn, hp⟩).2
  · intro h hv hr
    obtain ⟨n, hn⟩ := Tree.isValid_iff.mp hv
    exact ht.getLast?_ancestors hn hr
  · exact ht.visit_root
  · intro h n hn
    exact (ht.tidy h n hn).1
  · rintro h n hn ⟨before, a, b, after, hparts⟩
    have hchain := (ht.tidy h n hn).2
    rw [hparts] at hchain
    obtain ⟨-, hjoin, -⟩ := List.isChain_append_cons_cons.mp hchain
    simp [Part.isNode] at hjoin
  · intro h n hn hd a ha
    exact ht.dirty_of_encloses (ht.descending.mem_ancestors_iff.mp ha) hn hd

/-- Whatever is called on a tree, in any order and failing or not, its history stays sound. -/
theorem sound_run (file : String) (source : Text) (template : Template) (calls : List Edit) :
    ((ofTemplate file source template).run calls).Sound :=
  ((kept_ofTemplate file source template).run calls).sound

end History
end LintRepair
