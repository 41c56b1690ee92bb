import LintRepair.Proofs.Repair.Ledger
import Mathlib.Algebra.Order.BigOperators.Group.List
import Mathlib.Algebra.Order.Ring.Nat

/-!
# The totals of the books

Every line of the books is worth some counts, and the totals of a run are what its lines are worth
together. They are the sums over the rules, field by field.
-/
namespace LintRepair

attribute [ext] RuleCounts

namespace RuleCounts

variable {c : RuleCounts} {cs ds : List RuleCounts}

theorem zero_add (c : RuleCounts) : add {} c = c := by
  ext <;> exact Nat.zero_add _

theorem add_zero (c : RuleCounts) : c.add {} = c := rfl

theorem add_assoc (a b c : RuleCounts) : (a.add b).add c = a.add (b.add c) := by
  ext <;> exact Nat.add_assoc ..

theorem foldl_add (c : RuleCounts) (cs : List RuleCounts) : cs.foldl add c = c.add (sum cs) := by
  induction cs generalizing c with
  | nil => rfl
  | cons d rest ih => rw [sum, List.foldl_cons, List.foldl_cons, ih, ih (add {} d), zero_add, add_assoc]

theorem sum_cons (c : RuleCounts) (cs : List RuleCounts) : sum (c :: cs) = c.add (sum cs) := by
  rw [sum, List.foldl_cons, foldl_add, zero_add]

theorem sum_append (cs ds : List RuleCounts) : sum (cs ++ ds) = (sum cs).add (sum ds) := by
  rw [sum, List.foldl_append, foldl_add]
  rfl

/-- These counts are the sums of the others, field by field. -/
structure Sums (total : RuleCounts) (cs : List RuleCounts) : Prop where
  found : total.found = (cs.map (·.found)).sum
  applied : total.applied = (cs.map (·.applied)).sum
  declined : total.declined = (cs.map (·.declined)).sum
  crashes : total.crashes = (cs.map (·.crashes)).sum
  remaining : total.remaining = (cs.map (·.remaining)).sum

theorem sum_sums (cs : List RuleCounts) : (sum cs).Sums cs := by
  have hfield : ∀ f : RuleCounts → Nat, f {} = 0 → (∀ a b, f (a.add b) = f a + f b) →
      f (sum cs) = (cs.map f).sum := by
    intro f hzero hadd
    induction cs with
    | nil => exact hzero
    | cons c rest ih => rw [sum_cons, hadd, ih, List.map_cons, List.sum_cons]
  constructor
  · exact hfield _ rfl fun _ _ => rfl
  · exact hfield _ rfl fun _ _ => rfl
  · exact hfield _ rfl fun _ _ => rfl
  · exact hfield _ rfl fun _ _ => rfl
  · exact hfield _ rfl fun _ _ => rfl

theorem Sums.perm (h : c.Sums cs) (hperm : cs.Perm ds) : c.Sums ds where
  found := h.found.trans (hperm.map _).sum_nat
  applied := h.applied.trans (hperm.map _).sum_nat
  declined := h.declined.trans (hperm.map _).sum_nat
  crashes := h.crashes.trans (hperm.map _).sum_nat
  remaining := h.remaining.trans (hperm.map _).sum_nat

end RuleCounts

namespace Statistics

variable {f : RuleStatistics → RuleStatistics} {s : Statistics} {c : RuleCounts} {id : String}
  {vs : List Violation}

theorem totals_update (hf : ∀ r, (f r).counts = r.counts.add c) (s : Statistics) (id : String) :
    (s.update id f).totals = s.totals.add c := by
  have hrules : ∀ rs : List RuleStatistics, RuleCounts.sum ((updateRule f id rs).map (·.counts)) =
      (RuleCounts.sum (rs.map (·.counts))).add c := by
    intro rs
    induction rs with
    | nil =>
      rw [updateRule, List.map_singleton, hf, RuleCounts.sum_cons]
      rfl
    | cons r rest ih =>
      rw [updateRule]
      split
      · rw [List.map_cons, List.map_cons, RuleCounts.sum_cons, RuleCounts.sum_cons, hf]
        ext <;> exact Nat.add_right_comm ..
      · rw [List.map_cons, List.map_cons, RuleCounts.sum_cons, RuleCounts.sum_cons, ih,
          RuleCounts.add_assoc]
  exact hrules s.rules

/-- What a line of the books is worth. -/
def Entry.counts : Entry → RuleCounts
  | .found _ => { found := 1 }
  | .applied _ => { applied := 1 }
  | .declined _ => { declined := 1 }
  | .crash _ => { crashes := 1 }
  | .fallback _ | .failure _ => {}

theorem totals_enter (s : Statistics) (e : Entry) :
    (s.enter e).totals = s.totals.add e.counts := by
  cases e with
  | found v => exact totals_update (fun _ => by rfl) s v.ruleId
  | applied v => exact totals_update (fun _ => by rfl) s v.ruleId
  | declined ruleId => exact totals_update (fun _ => by rfl) s ruleId
  | crash c => exact totals_update (fun _ => by rfl) s c.ruleId
  | fallback f => rfl
  | failure f => rfl

theorem totals_enterAll (s : Statistics) (es : List Entry) :
    (s.enterAll es).totals = s.totals.add (.sum (es.map Entry.counts)) := by
  induction es generalizing s with
  | nil => rfl
  | cons e rest ih =>
    rw [enterAll, List.foldl_cons, ← enterAll, ih, totals_enter, List.map_cons, RuleCounts.sum_cons,
      RuleCounts.add_assoc]

theorem totals_track (s : Statistics) (ids : List String) : (s.track ids).totals = s.totals := by
  induction ids generalizing s with
  | nil => rfl
  | cons id rest ih =>
    rw [track, List.foldl_cons, ← track, ih, totals_update (c := {}) fun r => rfl,
      RuleCounts.add_zero]

theorem totals_setRemaining (s : Statistics) (vs : List Violation) :
    (s.setRemaining vs).totals = { s.totals with remaining := vs.length } := by
  have hcleared : s.cleared.totals = { s.totals with remaining := 0 } := by
    unfold totals cleared
    generalize s.rules = rs
    induction rs with
    | nil => rfl
    | cons r rest ih =>
      simp only [List.map_cons, RuleCounts.sum_cons] at ih ⊢
      rw [ih]
      rfl
  have hfold : ∀ c : Statistics, (vs.foldl (fun s v => s.update v.ruleId left) c).totals =
      { c.totals with remaining := c.totals.remaining + vs.length } := by
    induction vs with
    | nil => exact fun _ => rfl
    | cons v rest ih =>
      intro c
      rw [List.foldl_cons, ih, totals_update (c := { remaining := 1 }) fun r => by rfl]
      ext <;> simp only [RuleCounts.add, List.length_cons] <;> lia
  rw [setRemaining_eq, hfold, hcleared]
  simp only [Nat.zero_add]

theorem exists_rules_track (s : Statistics) (ids : List String) :
    ∃ rules, s.track ids = { s with rules } := by
  induction ids generalizing s with
  | nil => exact ⟨s.rules, rfl⟩
  | cons id rest ih => exact ih (s.update id fun r => r)

theorem exists_rules_setRemaining (s : Statistics) (vs : List Violation) :
    ∃ rules, s.setRemaining vs = { s with rules } := by
  have hfold : ∀ c : Statistics, ∃ rules,
      vs.foldl (fun s v => s.update v.ruleId left) c = { c with rules } := by
    induction vs with
    | nil => exact fun c => ⟨c.rules, rfl⟩
    | cons v rest ih => exact fun c => ih (c.update v.ruleId left)
  exact hfold s.cleared

/-- The books have a place for every repair that they count. -/
def Located (s : Statistics) : Prop :=
  ∀ r ∈ s.rules, r.appliedPlaces.length = r.counts.applied

namespace Located

theorem update (hs : s.Located) (hf : ∀ r, r.appliedPlaces.length = r.counts.applied →
    (f r).appliedPlaces.length = (f r).counts.applied) (id : String) : (s.update id f).Located := by
  have hrules : ∀ rs : List RuleStatistics, (∀ r ∈ rs, r.appliedPlaces.length = r.counts.applied) →
      ∀ r ∈ updateRule f id rs, r.appliedPlaces.length = r.counts.applied := by
    intro rs hrs
    induction rs with
    | nil =>
      intro r hr
      rw [List.mem_singleton.mp hr]
      exact hf _ rfl
    | cons x rest ih =>
      obtain ⟨hx, hrest⟩ := List.forall_mem_cons.mp hrs
      rw [updateRule]
      split
      · exact List.forall_mem_cons.mpr ⟨hf x hx, hrest⟩
      · exact List.forall_mem_cons.mpr ⟨hx, ih hrest⟩
  exact hrules s.rules hs

theorem enter (hs : s.Located) (e : Entry) : (s.enter e).Located := by
  cases e with
  | found v => exact hs.update (fun _ h => by exact h) _
  | applied v =>
    refine hs.update (fun r h => ?_) _
    rw [List.length_append, h]
    rfl
  | declined ruleId => exact hs.update (fun _ h => by exact h) _
  | crash c => exact hs.update (fun _ h => by exact h) _
  | fallback f => exact hs
  | failure f => exact hs

theorem enterAll (hs : s.Located) (es : List Entry) : (s.enterAll es).Located := by
  induction es generalizing s with
  | nil => exact hs
  | cons e rest ih => exact ih (hs.enter e)

theorem track (hs : s.Located) (ids : List String) : (s.track ids).Located := by
  induction ids generalizing s with
  | nil => exact hs
  | cons id rest ih => exact ih (hs.update (fun _ h => h) id)

theorem setRemaining (hs : s.Located) (vs : List Violation) : (s.setRemaining vs).Located := by
  have hcleared : s.cleared.Located := by
    intro r hr
    obtain ⟨x, hx, rfl⟩ := List.mem_map.mp hr
    exact hs x hx
  rw [setRemaining_eq]
  generalize s.cleared = c at hcleared
  induction vs generalizing c with
  | nil => exact hcleared
  | cons v rest ih => exact ih _ (hcleared.update (f := left) (fun _ h => h) _)

end Located

theorem Distinct.perm_sortedRules (hs : s.Distinct) : s.sortedRules.Perm s.rules := by
  have hids : s.rules.filterMap (fun r => s.get? r.ruleId) = s.rules := by
    rw [List.filterMap_congr fun r hr => hs.get?_eq_some_iff.mpr ⟨hr, rfl⟩, List.filterMap_some]
  have hperm := (List.mergeSort_perm (s.rules.map (·.ruleId)) unitsLe).filterMap s.get?
  rwa [List.filterMap_map, Function.comp_def, hids] at hperm

theorem Distinct.totals_sums (hs : s.Distinct) :
    s.totals.Sums (s.sortedRules.map (·.counts)) :=
  (RuleCounts.sum_sums _).perm (hs.perm_sortedRules.map _).symm

namespace Entry

def fallback? : Entry → Option RenderFallback
  | .fallback f => some f
  | _ => none

end Entry

theorem fallbacks_enterAll (s : Statistics) (es : List Entry) :
    (s.enterAll es).fallbacks = s.fallbacks ++ es.filterMap Entry.fallback? := by
  induction es generalizing s with
  | nil => exact (List.append_nil _).symm
  | cons e rest ih =>
    rw [enterAll, List.foldl_cons, ← enterAll, ih]
    cases e with
    | fallback f => exact List.append_assoc ..
    | found v => rfl
    | applied v => rfl
    | declined ruleId => rfl
    | crash c => rfl
    | failure f => rfl

end Statistics
end LintRepair
