import LintRepair.Proofs.Repair.Totals

/-!
# Merged books

Merging books adds up the counters of every rule and puts the records behind each other. The books of
a project are those of its files, merged one after the other, so they hold the sums over the files.
-/
namespace LintRepair

namespace RuleStatistics

/-- An entry with the counters and the places of another one. -/
def absorb (ours theirs : RuleStatistics) : RuleStatistics :=
  { ours with
    counts := ours.counts.add theirs.counts
    appliedPlaces := ours.appliedPlaces ++ theirs.appliedPlaces }

end RuleStatistics

namespace RuleCounts.Sums

variable {c d : RuleCounts} {cs : List RuleCounts}

theorem eq (h : c.Sums cs) (h' : d.Sums cs) : c = d := by
  ext
  · rw [h.found, h'.found]
  · rw [h.applied, h'.applied]
  · rw [h.declined, h'.declined]
  · rw [h.crashes, h'.crashes]
  · rw [h.remaining, h'.remaining]

theorem concat (h : c.Sums cs) (d : RuleCounts) : (c.add d).Sums (cs ++ [d]) := by
  rw [h.eq (sum_sums cs)]
  have hsum := sum_sums (cs ++ [d])
  rwa [sum_append, sum_cons, show sum [] = {} from rfl, add_zero] at hsum

end RuleCounts.Sums

namespace Statistics

variable {f : RuleStatistics → RuleStatistics} {s other : Statistics} {id id' : String}
  {rules : List String} {ss : List Statistics}

/-- The entry of a rule. A rule that is not listed has one with nothing in it. -/
def entry (s : Statistics) (id : String) : RuleStatistics := (s.get? id).getD { ruleId := id }

theorem entry_update (hf : ∀ r, (f r).ruleId = r.ruleId) (s : Statistics) (id id' : String) :
    (s.update id f).entry id' = if id' = id then f (s.entry id) else s.entry id' := by
  rw [entry, get?_update hf]
  split
  · rfl
  · rfl

theorem mem_ruleIds_iff : id ∈ s.ruleIds ↔ ∃ r ∈ s.rules, r.ruleId = id := by
  rw [ruleIds, (List.mergeSort_perm _ _).mem_iff, List.mem_map]

theorem isSome_get? : (s.get? id).isSome = true ↔ id ∈ s.ruleIds := by
  rw [mem_ruleIds_iff, get?, List.find?_isSome]
  simp only [decide_eq_true_eq]

theorem mem_ruleIds_update (hf : ∀ r, (f r).ruleId = r.ruleId) (s : Statistics) :
    id' ∈ (s.update id f).ruleIds ↔ id' = id ∨ id' ∈ s.ruleIds := by
  rw [← isSome_get?, ← isSome_get?, get?_update hf]
  split
  · next h => exact iff_of_true rfl (.inl h)
  · next h => exact (or_iff_right h).symm

theorem entry_track (ids : List String) (id : String) : (track {} ids).entry id = { ruleId := id } := by
  have hfold : ∀ s : Statistics, (∀ id, s.entry id = { ruleId := id }) →
      (s.track ids).entry id = { ruleId := id } := by
    induction ids with
    | nil => exact fun s hs => hs id
    | cons x rest ih =>
      refine fun s hs => ih (s.update x fun r => r) fun id' => ?_
      rw [entry_update fun _ => rfl]
      split
      · next h => rw [hs, h]
      · exact hs id'
  exact hfold {} fun _ => rfl

theorem mem_ruleIds_track (ids : List String) : id ∈ (track {} ids).ruleIds ↔ id ∈ ids := by
  have hfold : ∀ s : Statistics, id ∈ (s.track ids).ruleIds ↔ id ∈ ids ∨ id ∈ s.ruleIds := by
    induction ids with
    | nil => exact fun s => (or_iff_right List.not_mem_nil).symm
    | cons x rest ih =>
      intro s
      refine (ih (s.update x fun r => r)).trans ?_
      rw [mem_ruleIds_update fun _ => rfl, List.mem_cons, or_left_comm, or_assoc]
  exact (hfold {}).trans (or_iff_left (by simp [mem_ruleIds_iff]))

/-- The entries of other books go into the books, one after the other. -/
def absorbAll (s : Statistics) (rs : List RuleStatistics) : Statistics :=
  rs.foldl (fun s r => s.update r.ruleId (·.absorb r)) s

theorem entry_absorbAll (s : Statistics) (rs : List RuleStatistics) (id : String) :
    (s.absorbAll rs).entry id =
      (rs.filter fun r => r.ruleId = id).foldl RuleStatistics.absorb (s.entry id) := by
  induction rs generalizing s with
  | nil => rfl
  | cons r rest ih =>
    refine (ih (s.update r.ruleId (·.absorb r))).trans ?_
    rw [entry_update (f := (·.absorb r)) fun _ => rfl]
    by_cases h : id = r.ruleId
    · rw [if_pos h, List.filter_cons_of_pos (by simpa using h.symm), List.foldl_cons, h]
    · rw [if_neg h, List.filter_cons_of_neg (by simpa using Ne.symm h)]

theorem mem_ruleIds_absorbAll (s : Statistics) (rs : List RuleStatistics) :
    id ∈ (s.absorbAll rs).ruleIds ↔ id ∈ s.ruleIds ∨ ∃ r ∈ rs, r.ruleId = id := by
  induction rs generalizing s with
  | nil => simp [absorbAll]
  | cons r rest ih =>
    refine (ih (s.update r.ruleId (·.absorb r))).trans ?_
    rw [mem_ruleIds_update (f := (·.absorb r)) fun _ => rfl, List.exists_mem_cons_iff, or_assoc,
      or_left_comm, eq_comm]

theorem totals_absorbAll (s : Statistics) (rs : List RuleStatistics) :
    (s.absorbAll rs).totals = s.totals.add (.sum (rs.map (·.counts))) := by
  induction rs generalizing s with
  | nil => rfl
  | cons r rest ih =>
    refine (ih (s.update r.ruleId (·.absorb r))).trans ?_
    rw [totals_update (c := r.counts) fun _ => rfl, List.map_cons, RuleCounts.sum_cons,
      RuleCounts.add_assoc]

theorem Distinct.filter_sortedRules (hs : s.Distinct) (id : String) :
    (s.sortedRules.filter fun r => r.ruleId = id) = (s.get? id).toList := by
  have hrules : (s.rules.filter fun r => r.ruleId = id) = (s.get? id).toList := by
    unfold Distinct at hs
    unfold get?
    generalize s.rules = rs at hs
    induction rs with
    | nil => rfl
    | cons x rest ih =>
      rw [List.map_cons, List.nodup_cons] at hs
      by_cases hx : x.ruleId = id
      · have hnone : (rest.filter fun r => r.ruleId = id) = [] := by
          refine List.filter_eq_nil_iff.mpr fun r hr h => hs.1 ?_
          exact List.mem_map.mpr ⟨r, hr, (of_decide_eq_true h).trans hx.symm⟩
        rw [List.filter_cons_of_pos (by simpa using hx), List.find?_cons_of_pos (by simpa using hx),
          hnone]
        rfl
      · rw [List.filter_cons_of_neg (by simpa using hx), List.find?_cons_of_neg (by simpa using hx),
          ih hs.2]
  have hperm := hs.perm_sortedRules.filter fun r => r.ruleId = id
  rw [hrules] at hperm
  cases hget : s.get? id with
  | none =>
    rw [hget] at hperm
    exact hperm.eq_nil
  | some r =>
    rw [hget] at hperm
    exact List.perm_singleton.mp hperm

theorem entry_merge (hs : other.Distinct) (s : Statistics) (id : String) :
    (s.merge other).entry id = (s.entry id).absorb (other.entry id) := by
  refine (entry_absorbAll s other.sortedRules id).trans ?_
  rw [hs.filter_sortedRules, entry, entry]
  cases other.get? id with
  | none =>
    simp only [Option.toList_none, List.foldl_nil, Option.getD_none, RuleStatistics.absorb,
      List.append_nil]
    rfl
  | some r => rfl

theorem mem_ruleIds_merge (hs : other.Distinct) (s : Statistics) :
    id ∈ (s.merge other).ruleIds ↔ id ∈ s.ruleIds ∨ id ∈ other.ruleIds := by
  refine (mem_ruleIds_absorbAll s other.sortedRules).trans (or_congr_right ?_)
  simp only [mem_ruleIds_iff, hs.perm_sortedRules.mem_iff]

theorem totals_merge (hs : other.Distinct) (s : Statistics) :
    (s.merge other).totals = s.totals.add other.totals := by
  refine (totals_absorbAll s other.sortedRules).trans ?_
  rw [(RuleCounts.sum_sums _).eq hs.totals_sums]

/-- Books for some rules that hold what is in other books, one after the other. -/
structure Gathers (total : Statistics) (rules : List String) (ss : List Statistics) : Prop where
  merged : total = ss.foldl merge (track {} rules)
  listed : ∀ id, id ∈ total.ruleIds ↔ id ∈ rules ∨ ∃ s ∈ ss, id ∈ s.ruleIds
  counts : ∀ id, (total.entry id).counts.Sums (ss.map fun s => (s.entry id).counts)
  places : ∀ id, (total.entry id).appliedPlaces = ss.flatMap fun s => (s.entry id).appliedPlaces
  totals : total.totals.Sums (ss.map totals)
  crashes : total.crashes = ss.flatMap (·.crashes)
  fallbacks : total.fallbacks = ss.flatMap (·.fallbacks)
  failures : total.failures = ss.flatMap (·.failures)

theorem gathers_track (rules : List String) : (track {} rules).Gathers rules [] := by
  obtain ⟨rs, hrecords⟩ := exists_rules_track {} rules
  constructor
  · rfl
  · simp [mem_ruleIds_track]
  · intro id
    rw [entry_track]
    exact ⟨rfl, rfl, rfl, rfl, rfl⟩
  · intro id
    rw [entry_track]
    rfl
  · rw [totals_track]
    exact ⟨rfl, rfl, rfl, rfl, rfl⟩
  · rw [hrecords]
    rfl
  · rw [hrecords]
    rfl
  · rw [hrecords]
    rfl

theorem Gathers.merge {total : Statistics} (h : total.Gathers rules ss) (hs : s.Distinct) :
    (total.merge s).Gathers rules (ss ++ [s]) := by
  constructor
  · rw [List.foldl_concat, ← h.merged]
  · intro id
    rw [mem_ruleIds_merge hs, h.listed]
    simp only [List.mem_append, List.mem_singleton, or_and_right, exists_or, exists_eq_left, or_assoc]
  · intro id
    rw [entry_merge hs, List.map_append, List.map_singleton]
    exact (h.counts id).concat _
  · intro id
    rw [entry_merge hs, List.flatMap_append, List.flatMap_singleton, ← h.places]
    rfl
  · rw [totals_merge hs, List.map_append, List.map_singleton]
    exact h.totals.concat _
  · rw [List.flatMap_append, List.flatMap_singleton, ← h.crashes]
    rfl
  · rw [List.flatMap_append, List.flatMap_singleton, ← h.fallbacks]
    rfl
  · rw [List.flatMap_append, List.flatMap_singleton, ← h.failures]
    rfl

end Statistics
end LintRepair
