import LintRepair.Proofs.Repair.Merging
import LintRepair.Proofs.Repair.Results

/-!
# What a run has found

The books of a run count the violations of its first turn as found, and those of no other turn. So they count
what the checks list for the text as it was given, whatever the repairs come to.
-/
namespace LintRepair

variable {σ : Type} {id : String}

namespace Statistics

def Entry.found? : Entry → Option Violation
  | .found v => some v
  | _ => none

/-- How many violations of a rule were found. -/
def found (s : Statistics) (id : String) : Nat := (s.entry id).counts.found

theorem found_update {f : RuleStatistics → RuleStatistics} (hf : ∀ r, (f r).ruleId = r.ruleId)
    (hfound : ∀ r, (f r).counts.found = r.counts.found) (s : Statistics) (id' : String) :
    (s.update id' f).found id = s.found id := by
  rw [found, entry_update hf]
  split
  · next heq => rw [hfound, heq, found]
  · rfl

theorem found_enter (s : Statistics) (e : Entry) : (s.enter e).found id =
    s.found id + (e.found?.toList.countP fun v => v.ruleId = id) := by
  cases e with
  | found v =>
    change (s.update v.ruleId _).found id = _
    rw [found, entry_update fun _ => by rfl]
    by_cases h : id = v.ruleId
    · simp [h, Entry.found?, found]
    · simp [h, Ne.symm h, Entry.found?, found]
  | applied v => exact found_update (fun _ => by rfl) (fun _ => by rfl) s v.ruleId
  | declined ruleId => exact found_update (fun _ => by rfl) (fun _ => by rfl) s ruleId
  | crash c => exact found_update (fun _ => by rfl) (fun _ => by rfl) s c.ruleId
  | fallback f => rfl
  | failure f => rfl

theorem found_enterAll (s : Statistics) (es : List Entry) : (s.enterAll es).found id =
    s.found id + (es.filterMap Entry.found?).countP fun v => v.ruleId = id := by
  induction es generalizing s with
  | nil => rfl
  | cons e rest ih =>
    rw [enterAll, List.foldl_cons, ← enterAll, ih, found_enter, List.filterMap_cons]
    cases e.found? with
    | none => simp
    | some v =>
      simp only [Option.toList_some, List.countP_cons, List.countP_nil]
      lia

theorem found_setRemaining (s : Statistics) (vs : List Violation) :
    (s.setRemaining vs).found id = s.found id := by
  have hcleared : s.cleared.found id = s.found id := by
    rw [found, entry, cleared, get?, List.find?_map]
    simp only [Function.comp_def]
    rw [found, entry, get?]
    cases s.rules.find? (·.ruleId = id) with
    | none => rfl
    | some r => rfl
  rw [setRemaining_eq, ← hcleared]
  generalize s.cleared = c
  induction vs generalizing c with
  | nil => rfl
  | cons v rest ih =>
    rw [List.foldl_cons, ih]
    exact found_update (fun _ => by rfl) (fun _ => by rfl) c v.ruleId

theorem found_track (ids : List String) : (track {} ids).found id = 0 := by
  rw [found, entry_track]

theorem Gathers.found {total : Statistics} {rules : List String} {ss : List Statistics}
    (h : total.Gathers rules ss) (id : String) : total.found id = (ss.map (·.found id)).sum := by
  rw [Statistics.found, (h.counts id).found, List.map_map]
  rfl

end Statistics

theorem PassReport.filterMap_found?_entries (r : PassReport σ) (requested : RenderMode) (file : String)
    (number : Nat) : (r.entries requested file number).filterMap Statistics.Entry.found? = [] := by
  refine List.filterMap_eq_nil_iff.mpr fun e he => ?_
  rcases List.mem_append.mp he with he | he
  · obtain ⟨h, -, hentry⟩ := List.mem_filterMap.mp he
    unfold Handling.entry? at hentry
    split at hentry <;> cases hentry <;> rfl
  · rcases ending_cases he with ⟨f, rfl⟩ | ⟨f, rfl⟩ | ⟨v, rfl⟩ <;> rfl

namespace Engine

variable {e : Engine σ} {options : RepairOptions} {number : Nat} {p : Progress σ}

theorem TurnReport.filterMap_found?_entries (t : TurnReport σ) (options : RepairOptions) (number : Nat)
    (file : String) : (t.entries options number file).filterMap Statistics.Entry.found? =
      if number = 1 then t.remaining else [] := by
  have hfound : (if number = 1 then t.remaining.map Statistics.Entry.found else []).filterMap
      Statistics.Entry.found? = if number = 1 then t.remaining else [] := by
    split
    · rw [List.filterMap_map]
      exact List.filterMap_some
    · rfl
  unfold entries
  rw [List.filterMap_append, hfound]
  cases t with
  | halted => exact List.append_nil _
  | passed remaining pass =>
    dsimp only
    rw [pass.filterMap_found?_entries, List.append_nil]

theorem found_run (hnumber : 1 < number) (p : Progress σ) (ts : List (TurnReport σ)) (id : String) :
    (p.run options number ts).statistics.found id = p.statistics.found id := by
  induction ts generalizing number p with
  | nil => rfl
  | cons t rest ih =>
    rw [Progress.run, ih (by lia), after_statistics, Statistics.found_enterAll,
      TurnReport.filterMap_found?_entries, if_neg (by lia)]
    rfl

/-- The books of a run count what the checks list for its text. -/
theorem found_of_repairSource (he : e.analyzer.Deterministic) {text : Text} {file : String}
    {ids : List String} {j j' : Journal} {r : RepairResult σ}
    (h : (e.repairSource text file ids options).Yields j r j') :
    ∃ rules template parsed vs, e.validateRules ids = .ok rules ∧
      e.language.parse text file = .ok (template, parsed) ∧
      e.Finds ⟨.ofTemplate file text template, some parsed, 0⟩ rules vs ∧
      ∀ id, r.statistics.found id = vs.countP fun v => v.ruleId = id := by
  obtain ⟨rules, p, ts, last, hran, hsame⟩ := exists_ran he h
  obtain ⟨template, parsed, hparse, rfl⟩ := hran.opening
  obtain ⟨t, rest, hturns, htakes⟩ := hran.course.first
  refine ⟨rules, template, parsed, t.remaining, hran.valid, hparse, htakes.finds, fun id => ?_⟩
  rw [← hsame.statistics, Progress.result, Statistics.found_setRemaining, hturns, Progress.run,
    found_run (by decide), after_statistics, Statistics.found_enterAll,
    TurnReport.filterMap_found?_entries, if_pos rfl]
  exact (congrArg (· + _) (Statistics.found_track rules)).trans (Nat.zero_add _)

end Engine
end LintRepair
