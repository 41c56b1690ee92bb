import LintRepair.Proofs.Repair.Selection
import LintRepair.Proofs.Text.Units
import LintRepair.Report.Basic

/-!
# The books of a run

The statistics of a run are written one entry after the other. Two books with the same rules in a
different order stay alike under the same entries, and they show the same snapshot.
-/
namespace LintRepair

/-- A line in the books of a run. -/
inductive Statistics.Entry where
  | found (v : Violation)
  | applied (v : Violation)
  | declined (ruleId : String)
  | crash (c : CrashRecord)
  | fallback (f : RenderFallback)
  | failure (f : PassFailure)

namespace Statistics.Entry

def crash? : Entry → Option CrashRecord
  | .crash c => some c
  | _ => none

def failure? : Entry → Option PassFailure
  | .failure f => some f
  | _ => none

end Statistics.Entry

namespace Statistics

variable {f : RuleStatistics → RuleStatistics} {s s' : Statistics} {id : String}
  {rs rs' : List RuleStatistics} {r : RuleStatistics}

def enter (s : Statistics) : Entry → Statistics
  | .found v => s.addFound [v]
  | .applied v => s.addApplied v
  | .declined ruleId => s.addDeclined ruleId
  | .crash c => s.addCrash c
  | .fallback f => s.addFallback f
  | .failure f => s.addFailure f

def enterAll (s : Statistics) (es : List Entry) : Statistics := es.foldl enter s

theorem enterAll_append (s : Statistics) (es es' : List Entry) :
    s.enterAll (es ++ es') = (s.enterAll es).enterAll es' := List.foldl_append

theorem addFound_eq (s : Statistics) (vs : List Violation) :
    s.addFound vs = s.enterAll (vs.map .found) := by
  rw [enterAll, List.foldl_map]
  rfl

theorem updateRule_of_notMem (h : id ∉ rs.map (·.ruleId)) :
    updateRule f id rs = rs ++ [f { ruleId := id }] := by
  induction rs with
  | nil => rfl
  | cons r rest ih =>
    rw [List.map_cons, List.mem_cons, not_or] at h
    rw [updateRule, if_neg (Ne.symm h.1), ih h.2, List.cons_append]

theorem updateRule_of_mem (hd : (rs.map (·.ruleId)).Nodup) (h : id ∈ rs.map (·.ruleId)) :
    updateRule f id rs = rs.map fun r => if r.ruleId = id then f r else r := by
  induction rs with
  | nil => exact absurd h List.not_mem_nil
  | cons r rest ih =>
    rw [List.map_cons, List.nodup_cons] at hd
    rw [updateRule, List.map_cons]
    by_cases hr : r.ruleId = id
    · have hrest : ∀ x ∈ rest, (if x.ruleId = id then f x else x) = x := fun x hx =>
        if_neg fun hx' => hd.1 (List.mem_map.mpr ⟨x, hx, hx'.trans hr.symm⟩)
      rw [if_pos hr, if_pos hr, List.map_congr_left hrest, List.map_id']
    · rw [List.map_cons, List.mem_cons] at h
      rw [if_neg hr, if_neg hr, ih hd.2 (h.resolve_left (Ne.symm hr))]

theorem map_ruleId_updateRule (hf : ∀ r, (f r).ruleId = r.ruleId) (hd : (rs.map (·.ruleId)).Nodup) :
    (updateRule f id rs).map (·.ruleId) =
      if id ∈ rs.map (·.ruleId) then rs.map (·.ruleId) else rs.map (·.ruleId) ++ [id] := by
  by_cases h : id ∈ rs.map (·.ruleId)
  · rw [updateRule_of_mem hd h, if_pos h, List.map_map]
    refine List.map_congr_left fun r _ => ?_
    rw [Function.comp_apply]
    split
    · exact hf r
    · rfl
  · rw [updateRule_of_notMem h, if_neg h, List.map_append, List.map_singleton, hf]

theorem perm_updateRule (hd : (rs.map (·.ruleId)).Nodup) (h : rs.Perm rs') :
    (updateRule f id rs).Perm (updateRule f id rs') := by
  have hids := h.map (·.ruleId)
  by_cases hmem : id ∈ rs.map (·.ruleId)
  · rw [updateRule_of_mem hd hmem, updateRule_of_mem (hids.nodup hd) (hids.subset hmem)]
    exact h.map _
  · rw [updateRule_of_notMem hmem, updateRule_of_notMem fun hmem' => hmem (hids.symm.subset hmem')]
    exact h.append_right _

/-- The books without what was left. -/
def cleared (s : Statistics) : Statistics :=
  { s with rules := s.rules.map fun r => { r with counts := { r.counts with remaining := 0 } } }

/-- One more violation of the rule is left. -/
def left (r : RuleStatistics) : RuleStatistics :=
  { r with counts := { r.counts with remaining := r.counts.remaining + 1 } }

theorem setRemaining_eq (s : Statistics) (vs : List Violation) :
    s.setRemaining vs = vs.foldl (fun s v => s.update v.ruleId left) s.cleared := rfl

/-- No rule has two entries. -/
def Distinct (s : Statistics) : Prop := (s.rules.map (·.ruleId)).Nodup

namespace Distinct

theorem update (hs : s.Distinct) (hf : ∀ r, (f r).ruleId = r.ruleId) (id : String) :
    (s.update id f).Distinct := by
  unfold Distinct Statistics.update
  rw [map_ruleId_updateRule hf hs]
  split
  · exact hs
  · next hmem => exact List.nodup_append.mpr ⟨hs, List.nodup_singleton id, by
      simpa using fun r hr h => hmem (List.mem_map.mpr ⟨r, hr, h⟩)⟩

theorem enter (hs : s.Distinct) (e : Entry) : (s.enter e).Distinct := by
  cases e with
  | found v => exact hs.update (fun _ => by rfl) _
  | applied v => exact hs.update (fun _ => by rfl) _
  | declined ruleId => exact hs.update (fun _ => by rfl) _
  | crash c => exact hs.update (fun _ => by rfl) _
  | fallback f => exact hs
  | failure f => exact hs

theorem enterAll (hs : s.Distinct) (es : List Entry) : (s.enterAll es).Distinct := by
  induction es generalizing s with
  | nil => exact hs
  | cons e rest ih => exact ih (hs.enter e)

theorem track (hs : s.Distinct) (ids : List String) : (s.track ids).Distinct := by
  induction ids generalizing s with
  | nil => exact hs
  | cons id rest ih => exact ih (hs.update (fun _ => rfl) id)

theorem get?_eq_some_iff (hs : s.Distinct) : s.get? id = some r ↔ r ∈ s.rules ∧ r.ruleId = id := by
  unfold Distinct at hs
  unfold get?
  generalize s.rules = rs at hs
  induction rs with
  | nil => simp
  | cons x rest ih =>
    rw [List.map_cons, List.nodup_cons] at hs
    by_cases hx : x.ruleId = id
    · have hrest : r ∈ rest → r.ruleId ≠ id := fun hr h =>
        hs.1 (List.mem_map.mpr ⟨r, hr, h.trans hx.symm⟩)
      rw [List.find?_cons_of_pos (by simpa using hx), Option.some_inj, List.mem_cons]
      constructor
      · rintro rfl
        exact ⟨.inl rfl, hx⟩
      · rintro ⟨hr | hr, h⟩
        · exact hr.symm
        · exact absurd h (hrest hr)
    · rw [List.find?_cons_of_neg (by simpa using hx), ih hs.2, List.mem_cons]
      constructor
      · exact fun h => ⟨.inr h.1, h.2⟩
      · rintro ⟨rfl | hr, h⟩
        · exact absurd h hx
        · exact ⟨hr, h⟩

theorem cleared (hs : s.Distinct) : s.cleared.Distinct := by
  unfold Distinct Statistics.cleared
  rw [List.map_map]
  exact hs

theorem setRemaining (hs : s.Distinct) (vs : List Violation) : (s.setRemaining vs).Distinct := by
  have hcleared := hs.cleared
  rw [setRemaining_eq]
  generalize s.cleared = c at hcleared
  induction vs generalizing c with
  | nil => exact hcleared
  | cons v rest ih => exact ih _ (hcleared.update (f := left) (fun _ => rfl) _)

end Distinct

theorem applied_enterAll {es : List Entry} (hes : ∀ v, Entry.applied v ∉ es) (s : Statistics)
    (id : String) : (s.enterAll es).applied id = s.applied id := by
  induction es generalizing s with
  | nil => rfl
  | cons e rest ih =>
    rw [enterAll, List.foldl_cons, ← enterAll, ih fun v hv => hes v (List.mem_cons_of_mem _ hv)]
    cases e with
    | found v => exact applied_update (fun _ => by rfl) fun _ => by rfl
    | applied v => exact absurd List.mem_cons_self (hes v)
    | declined ruleId => exact applied_addDeclined
    | crash c => exact applied_addCrash
    | fallback f => rfl
    | failure f => rfl

theorem crashes_enterAll (s : Statistics) (es : List Entry) :
    (s.enterAll es).crashes = s.crashes ++ es.filterMap Entry.crash? := by
  induction es generalizing s with
  | nil => exact (List.append_nil _).symm
  | cons e rest ih =>
    rw [enterAll, List.foldl_cons, ← enterAll, ih]
    cases e with
    | crash c => exact List.append_assoc ..
    | found v => rfl
    | applied v => rfl
    | declined ruleId => rfl
    | fallback f => rfl
    | failure f => rfl

theorem failures_enterAll (s : Statistics) (es : List Entry) :
    (s.enterAll es).failures = s.failures ++ es.filterMap Entry.failure? := by
  induction es generalizing s with
  | nil => exact (List.append_nil _).symm
  | cons e rest ih =>
    rw [enterAll, List.foldl_cons, ← enterAll, ih]
    cases e with
    | failure f => exact List.append_assoc ..
    | found v => rfl
    | applied v => rfl
    | declined ruleId => rfl
    | crash c => rfl
    | fallback f => rfl

/-- Where repairs of a rule were applied, in the order in which they were counted. -/
def places (s : Statistics) (id : String) : List RepairPlace :=
  match s.get? id with
  | some r => r.appliedPlaces
  | none => []

theorem places_update (hf : ∀ r, (f r).ruleId = r.ruleId)
    (hplaces : ∀ r, r.appliedPlaces <+: (f r).appliedPlaces) (id id' : String) :
    s.places id' <+: (s.update id f).places id' := by
  rw [places, places, get?_update hf]
  by_cases h : id' = id
  · subst h
    rw [if_pos rfl]
    cases s.get? id' with
    | none => exact List.nil_prefix
    | some r => exact hplaces r
  · simp only [if_neg h, List.prefix_rfl]

theorem places_enter (s : Statistics) (e : Entry) (id : String) :
    s.places id <+: (s.enter e).places id := by
  cases e with
  | found v => exact places_update (fun _ => by rfl) (fun _ => by exact List.prefix_rfl) _ id
  | applied v => exact places_update (fun _ => by rfl) (fun _ => List.prefix_append _ _) _ id
  | declined ruleId =>
    exact places_update (fun _ => by rfl) (fun _ => by exact List.prefix_rfl) _ id
  | crash c => exact places_update (fun _ => by rfl) (fun _ => by exact List.prefix_rfl) _ id
  | fallback f => exact List.prefix_rfl
  | failure f => exact List.prefix_rfl

theorem places_enterAll (s : Statistics) (es : List Entry) (id : String) :
    s.places id <+: (s.enterAll es).places id := by
  induction es generalizing s with
  | nil => exact List.prefix_rfl
  | cons e rest ih => exact (places_enter s e id).trans (ih (s.enter e))

theorem places_enterAll_eq {es : List Entry} (hes : ∀ v, Entry.applied v ∉ es) (s : Statistics)
    (id : String) : (s.enterAll es).places id = s.places id := by
  have hupdate : ∀ (s : Statistics) (f : RuleStatistics → RuleStatistics) (id' : String),
      (∀ r, (f r).ruleId = r.ruleId) → (∀ r, (f r).appliedPlaces = r.appliedPlaces) →
      (s.update id' f).places id = s.places id := by
    intro s f id' hf hplaces
    rw [places, places, get?_update hf]
    by_cases h : id = id'
    · subst h
      rw [if_pos rfl]
      cases s.get? id with
      | none => exact hplaces _
      | some r => exact hplaces r
    · rw [if_neg h]
  induction es generalizing s with
  | nil => rfl
  | cons e rest ih =>
    rw [enterAll, List.foldl_cons, ← enterAll, ih fun v hv => hes v (List.mem_cons_of_mem _ hv)]
    cases e with
    | found v => exact hupdate s _ _ (fun _ => by rfl) fun _ => by rfl
    | applied v => exact absurd List.mem_cons_self (hes v)
    | declined ruleId => exact hupdate s _ _ (fun _ => by rfl) fun _ => by rfl
    | crash c => exact hupdate s _ _ (fun _ => by rfl) fun _ => by rfl
    | fallback f => rfl
    | failure f => rfl

theorem places_setRemaining (s : Statistics) (vs : List Violation) (id : String) :
    (s.setRemaining vs).places id = s.places id := by
  have hcleared : s.cleared.places id = s.places id := by
    rw [places, places, cleared, get?, get?, List.find?_map]
    simp only [Function.comp_def]
    cases s.rules.find? (·.ruleId = id) with
    | none => rfl
    | some r => rfl
  rw [setRemaining_eq, ← hcleared]
  generalize s.cleared = c
  induction vs generalizing c with
  | nil => rfl
  | cons v rest ih =>
    rw [List.foldl_cons, ih, places, places, get?_update fun _ => by rfl]
    by_cases h : id = v.ruleId
    · subst h
      rw [if_pos rfl]
      cases c.get? v.ruleId with
      | none => rfl
      | some r => rfl
    · rw [if_neg h]

theorem crashes_setRemaining (s : Statistics) (vs : List Violation) :
    (s.setRemaining vs).crashes = s.crashes := by
  rw [setRemaining_eq]
  have hcleared : s.cleared.crashes = s.crashes := rfl
  rw [← hcleared]
  generalize s.cleared = c
  induction vs generalizing c with
  | nil => rfl
  | cons v rest ih => exact ih (c.update v.ruleId left)

/-- What is left of a rule. -/
def remaining (s : Statistics) (id : String) : Nat :=
  match s.get? id with
  | some r => r.counts.remaining
  | none => 0

theorem remaining_setRemaining (s : Statistics) (vs : List Violation) (id : String) :
    (s.setRemaining vs).remaining id = vs.countP fun v => v.ruleId = id := by
  have hcleared : s.cleared.remaining id = 0 := by
    rw [remaining, cleared, get?, List.find?_map]
    simp only [Function.comp_def]
    cases s.rules.find? (·.ruleId = id) with
    | none => rfl
    | some r => rfl
  have hfold : ∀ c : Statistics, (vs.foldl (fun s v => s.update v.ruleId left) c).remaining id =
      c.remaining id + vs.countP fun v => v.ruleId = id := by
    induction vs with
    | nil => exact fun _ => rfl
    | cons v rest ih =>
      intro c
      rw [List.foldl_cons, ih, List.countP_cons, remaining, remaining, get?_update fun _ => by rfl]
      by_cases h : v.ruleId = id
      · subst h
        rw [if_pos rfl, if_pos (decide_eq_true rfl), Nat.add_comm _ 1, ← Nat.add_assoc]
        cases c.get? v.ruleId with
        | none => rfl
        | some r => rfl
      · rw [if_neg (Ne.symm h), if_neg (by simpa using h)]
        rfl
  rw [setRemaining_eq, hfold, hcleared, Nat.zero_add]

theorem crashes_track (s : Statistics) (ids : List String) : (s.track ids).crashes = s.crashes := by
  induction ids generalizing s with
  | nil => rfl
  | cons id rest ih => exact ih (s.update id fun r => r)

theorem track_eq {ids : List String} (hids : ids.Nodup)
    (hnew : ∀ id ∈ ids, id ∉ s.rules.map (·.ruleId)) :
    s.track ids = { s with rules := s.rules ++ ids.map fun ruleId => { ruleId } } := by
  induction ids generalizing s with
  | nil => rw [List.map_nil, List.append_nil]; rfl
  | cons id rest ih =>
    obtain ⟨hid, hrest⟩ := List.nodup_cons.mp hids
    have hupdate : s.update id (fun r => r) =
        { s with rules := s.rules ++ [{ ruleId := id }] } := by
      rw [update, updateRule_of_notMem (hnew id List.mem_cons_self)]
    rw [track, List.foldl_cons, ← track, hupdate, ih hrest]
    · rw [List.append_assoc]
      rfl
    · intro id' hid' hmem
      rw [List.map_append, List.mem_append] at hmem
      rcases hmem with hmem | hmem
      · exact hnew id' (List.mem_cons_of_mem _ hid') hmem
      · obtain rfl : id' = id := List.mem_singleton.mp hmem
        exact hid hid'

/-- Books that differ in nothing but the order of their rules. -/
structure Alike (s s' : Statistics) : Prop where
  rules : s.rules.Perm s'.rules
  distinct : s.Distinct
  crashes : s.crashes = s'.crashes
  fallbacks : s.fallbacks = s'.fallbacks
  failures : s.failures = s'.failures

namespace Alike

theorem distinct' (h : s.Alike s') : s'.Distinct := (h.rules.map _).nodup h.distinct

theorem update (h : s.Alike s') (hf : ∀ r, (f r).ruleId = r.ruleId) (id : String) :
    (s.update id f).Alike (s'.update id f) where
  rules := perm_updateRule h.distinct h.rules
  distinct := h.distinct.update hf id
  crashes := h.crashes
  fallbacks := h.fallbacks
  failures := h.failures

theorem enter (h : s.Alike s') (e : Entry) : (s.enter e).Alike (s'.enter e) := by
  cases e with
  | found v => exact h.update (fun _ => by rfl) _
  | applied v => exact h.update (fun _ => by rfl) _
  | declined ruleId => exact h.update (fun _ => by rfl) _
  | crash c =>
    obtain ⟨hrules, hdistinct, hcrashes, hfallbacks, hfailures⟩ :=
      h.update
        (f := fun r => { r with counts := { r.counts with crashes := r.counts.crashes + 1 } })
        (fun _ => rfl) c.ruleId
    exact ⟨hrules, hdistinct, congrArg (· ++ [c]) hcrashes, hfallbacks, hfailures⟩
  | fallback f =>
    exact ⟨h.rules, h.distinct, h.crashes, congrArg (· ++ [f]) h.fallbacks, h.failures⟩
  | failure f =>
    exact ⟨h.rules, h.distinct, h.crashes, h.fallbacks, congrArg (· ++ [f]) h.failures⟩

theorem enterAll (h : s.Alike s') (es : List Entry) : (s.enterAll es).Alike (s'.enterAll es) := by
  induction es generalizing s s' with
  | nil => exact h
  | cons e rest ih => exact ih (h.enter e)

theorem get?_eq (h : s.Alike s') (id : String) : s.get? id = s'.get? id := by
  refine Option.ext fun r => ?_
  rw [h.distinct.get?_eq_some_iff, h.distinct'.get?_eq_some_iff, h.rules.mem_iff]

theorem applied_eq (h : s.Alike s') (id : String) : s.applied id = s'.applied id := by
  rw [applied, applied, h.get?_eq]

theorem setRemaining (h : s.Alike s') (vs : List Violation) :
    (s.setRemaining vs).Alike (s'.setRemaining vs) := by
  have hcleared : s.cleared.Alike s'.cleared :=
    ⟨h.rules.map _, h.distinct.cleared, h.crashes, h.fallbacks, h.failures⟩
  rw [setRemaining_eq, setRemaining_eq]
  generalize s.cleared = c at hcleared
  generalize s'.cleared = c' at hcleared
  induction vs generalizing c c' with
  | nil => exact hcleared
  | cons v rest ih => exact ih _ _ (hcleared.update (f := left) (fun _ => rfl) _)

theorem ruleIds_eq (h : s.Alike s') : s.ruleIds = s'.ruleIds := by
  have htotal : ∀ a b, (unitsLe a b || unitsLe b a) = true := fun a b =>
    (Bool.or_eq_true ..).mpr (unitsLe_total a b)
  rw [ruleIds, ruleIds]
  exact mergeSort_eq_of_perm unitsLe (fun _ _ _ => unitsLe_trans) htotal (h.rules.map _)
    fun _ _ _ _ => unitsLe_antisymm

theorem sortedRules_eq (h : s.Alike s') : s.sortedRules = s'.sortedRules := by
  rw [sortedRules, sortedRules, h.ruleIds_eq]
  exact List.filterMap_congr fun id _ => h.get?_eq id

theorem totals_eq (h : s.Alike s') : s.totals = s'.totals := by
  unfold totals RuleCounts.sum
  refine (h.rules.map (·.counts)).foldl_eq' (fun a _ b _ c => ?_) _
  simp only [RuleCounts.add, RuleCounts.mk.injEq]
  lia

theorem track {ids ids' : List String} (hids : ids.Nodup) (h : ids.Perm ids') :
    (Statistics.track {} ids).Alike (Statistics.track {} ids') := by
  have hdistinct : (Statistics.track {} ids).Distinct := Distinct.track (s := {}) List.nodup_nil ids
  rw [track_eq hids fun _ _ => List.not_mem_nil] at hdistinct ⊢
  rw [track_eq (h.nodup hids) fun _ _ => List.not_mem_nil]
  exact ⟨h.map _, hdistinct, rfl, rfl, rfl⟩

theorem toValue_eq (h : s.Alike s') (order : FieldOrder) : s.toValue order = s'.toValue order := by
  rw [toValue, toValue, h.sortedRules_eq, h.totals_eq, h.crashes, h.fallbacks, h.failures]

end Alike

end Statistics
end LintRepair
