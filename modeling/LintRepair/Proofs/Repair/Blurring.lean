import LintRepair.Proofs.Repair.Courses

/-!
# Crashes seen as declines

A violation at which a processor crashes leaves the same trace in a run as one that is declined, but for
the column of the books in which it is counted and for the record of the crash. With the two columns
taken together and the records left out, what is entered for a pass, a turn and a run with crashes is
what is entered with declines in their place.
-/
namespace LintRepair

variable {σ : Type}

/-- A crash seen as a decline. -/
def Fate.blur : Fate → Fate
  | .crashed _ => .declined
  | fate => fate

def Fate.View.blurred : Fate.View where
  see := Fate.blur
  set?_see _ fate := by cases fate <;> rfl

/-- The entry of a rule with crashes counted as declines. -/
def RuleStatistics.blur (r : RuleStatistics) : RuleStatistics :=
  { r with counts := { r.counts with declined := r.counts.declined + r.counts.crashes, crashes := 0 } }

/-- A summary with crashes counted as declines. -/
def PassSummary.blur (s : PassSummary) : PassSummary :=
  { s with declined := s.declined + s.crashed, crashed := 0 }

namespace Statistics

/-- The books with crashes counted as declines, and without their records. -/
def blur (s : Statistics) : Statistics :=
  { s with rules := s.rules.map RuleStatistics.blur, crashes := [] }

def Entry.blur : Entry → Entry
  | .crash c => .declined c.ruleId
  | e => e

variable {f g : RuleStatistics → RuleStatistics}

theorem map_blur_updateRule (hfg : ∀ r, (f r).blur = g r.blur) (id : String)
    (rs : List RuleStatistics) :
    (updateRule f id rs).map RuleStatistics.blur = updateRule g id (rs.map RuleStatistics.blur) := by
  induction rs with
  | nil => exact congrArg (fun r => [r]) (hfg { ruleId := id })
  | cons r rest ih =>
    rw [updateRule, List.map_cons, updateRule]
    by_cases hr : r.ruleId = id
    · rw [if_pos hr, if_pos (show r.blur.ruleId = id from hr), List.map_cons, hfg]
    · rw [if_neg hr, if_neg (show ¬ r.blur.ruleId = id from hr), List.map_cons, ih]

theorem blur_update (hfg : ∀ r, (f r).blur = g r.blur) (s : Statistics) (id : String) :
    (s.update id f).blur = s.blur.update id g := by
  rw [blur, update, map_blur_updateRule hfg]
  rfl

theorem blur_enter (s : Statistics) (e : Entry) : (s.enter e).blur = s.blur.enter e.blur := by
  cases e with
  | found v => exact blur_update (fun _ => by rfl) s _
  | applied v => exact blur_update (fun _ => by rfl) s _
  | declined ruleId =>
    refine blur_update (fun r => ?_) s _
    simp only [RuleStatistics.blur, Nat.add_right_comm]
  | crash c =>
    rw [enter, addCrash, blur, update, map_blur_updateRule (g := fun r =>
      { r with counts := { r.counts with declined := r.counts.declined + 1 } }) fun _ => by rfl]
    rfl
  | fallback f => rfl
  | failure f => rfl

theorem blur_enterAll (s : Statistics) (es : List Entry) :
    (s.enterAll es).blur = s.blur.enterAll (es.map Entry.blur) := by
  induction es generalizing s with
  | nil => rfl
  | cons e rest ih =>
    rw [enterAll, List.foldl_cons, ← enterAll, ih, blur_enter]
    rfl

theorem blur_setRemaining (s : Statistics) (vs : List Violation) :
    (s.setRemaining vs).blur = s.blur.setRemaining vs := by
  have hcleared : s.cleared.blur = s.blur.cleared := by
    simp only [blur, cleared, List.map_map]
    rfl
  rw [setRemaining_eq, setRemaining_eq, ← hcleared]
  generalize s.cleared = c
  induction vs generalizing c with
  | nil => rfl
  | cons v rest ih =>
    rw [List.foldl_cons, ih, blur_update (g := left) fun _ => by rfl]
    rfl

theorem get?_blur (s : Statistics) (id : String) :
    s.blur.get? id = (s.get? id).map RuleStatistics.blur := by
  rw [get?, blur, List.find?_map]
  rfl

theorem applied_blur (s : Statistics) (id : String) : s.blur.applied id = s.applied id := by
  rw [applied, applied, get?_blur]
  cases s.get? id with
  | none => rfl
  | some r => rfl

end Statistics

theorem Handling.entry?_blur (number : Nat) (h : Handling) :
    (h.entry? number).map Statistics.Entry.blur = Handling.entry? number (h.seen .blurred) := by
  obtain ⟨v, fate⟩ := h
  cases fate <;> rfl

theorem filterMap_entry?_blur (number : Nat) (hs : List Handling) :
    (hs.filterMap (Handling.entry? number)).map Statistics.Entry.blur =
      (hs.map (Handling.seen .blurred)).filterMap (Handling.entry? number) := by
  rw [List.map_filterMap, List.filterMap_map]
  exact List.filterMap_congr fun h _ => h.entry?_blur number

theorem length_declined_blur (number : Nat) (hs : List Handling) :
    ((hs.map (Handling.seen .blurred)).filterMap Handling.declined?).length =
      (hs.filterMap Handling.declined?).length +
        (hs.filterMap (Handling.crash? number)).length := by
  induction hs with
  | nil => rfl
  | cons h rest ih =>
    obtain ⟨v, fate⟩ := h
    rw [List.map_cons]
    cases fate with
    | skipped => exact ih
    | produced set => exact ih
    | declined => exact (congrArg (· + 1) ih).trans (Nat.add_right_comm ..)
    | crashed message => exact congrArg (· + 1) ih

theorem filterMap_crash?_blur (number : Nat) (hs : List Handling) :
    (hs.map (Handling.seen .blurred)).filterMap (Handling.crash? number) = [] := by
  rw [List.filterMap_eq_nil_iff]
  intro h hh
  obtain ⟨⟨v, fate⟩, -, rfl⟩ := List.mem_map.mp hh
  cases fate <;> rfl

theorem filterMap_skipped?_blur (hs : List Handling) :
    (hs.map (Handling.seen .blurred)).filterMap Handling.skipped? =
      hs.filterMap Handling.skipped? := by
  rw [List.filterMap_map]
  refine List.filterMap_congr fun h _ => ?_
  obtain ⟨v, fate⟩ := h
  cases fate <;> rfl

namespace PassReport

variable (r : PassReport σ) (requested : RenderMode) (file : String) (number : Nat)

theorem entries_blur : (r.entries requested file number).map Statistics.Entry.blur =
    (r.seen .blurred).entries requested file number := by
  have hending : (r.ending requested file number).map Statistics.Entry.blur =
      r.ending requested file number := by
    refine (List.map_congr_left fun e he => ?_).trans (List.map_id _)
    obtain ⟨f, rfl⟩ | ⟨f, rfl⟩ | ⟨v, rfl⟩ := ending_cases he
    · rfl
    · rfl
    · rfl
  rw [entries, List.map_append, filterMap_entry?_blur, hending]
  rfl

theorem summary_blur (vs : List Violation) : (r.pass requested file number vs).summary.blur =
    ((r.seen .blurred).pass requested file number vs).summary := by
  have haccepted : (r.handled.map (Handling.seen .blurred)).map (·.violation) =
      r.handled.map (·.violation) := by
    rw [List.map_map]
    rfl
  have hselection : (r.seen .blurred).selection = r.selection := rfl
  rw [pass, pass, hselection]
  by_cases hnone : r.selection.taken = []
  · rw [if_pos hnone, if_pos hnone]
    simp only [Pass.summary, PassSummary.blur, settled, seen, Pass.filed, List.nil_append,
      length_declined_blur number, filterMap_crash?_blur, filterMap_skipped?_blur, haccepted,
      List.length_nil]
  · rw [if_neg hnone, if_neg hnone]
    simp only [Pass.summary, PassSummary.blur, Pass.chosen, settled, seen, Pass.filed,
      List.nil_append, length_declined_blur number, filterMap_crash?_blur,
      filterMap_skipped?_blur, haccepted, List.length_nil]

end PassReport

namespace Engine

variable {p q : Progress σ}

/-- The state of a run with crashes counted as declines. -/
def Progress.blur (p : Progress σ) : Progress σ :=
  { p with statistics := p.statistics.blur, passes := p.passes.map PassSummary.blur }

theorem Progress.eq_of_fields (hdocument : p.document = q.document)
    (hstatistics : p.statistics = q.statistics) (hpasses : p.passes = q.passes)
    (hremaining : p.remaining = q.remaining) : p = q := by
  obtain ⟨d, s, passes, remaining⟩ := p
  cases hdocument
  cases hstatistics
  cases hpasses
  cases hremaining
  rfl

namespace TurnReport

variable (t : TurnReport σ) (options : RepairOptions) (number : Nat) (file : String)

theorem stop?_seen (view : Fate.View) : (t.seen view).stop? = t.stop? := by
  cases t <;> rfl

theorem remaining_seen (view : Fate.View) : (t.seen view).remaining = t.remaining := by
  cases t <;> rfl

theorem document_seen (view : Fate.View) (d : Document σ) (n : Nat) :
    (t.seen view).document d n = t.document d n := by
  cases t <;> rfl

theorem entries_blur : (t.entries options number file).map Statistics.Entry.blur =
    (t.seen .blurred).entries options number file := by
  have hfound : (if number = 1 then t.remaining.map Statistics.Entry.found else []).map
      Statistics.Entry.blur = if number = 1 then t.remaining.map .found else [] := by
    split
    · rw [List.map_map]
      rfl
    · rfl
  unfold entries
  rw [List.map_append, hfound, remaining_seen]
  cases t with
  | halted remaining reason => rfl
  | passed remaining pass => exact congrArg _ (pass.entries_blur ..)

theorem summaries_blur (statistics : Statistics) :
    (t.summaries options number file statistics).map PassSummary.blur =
      (t.seen .blurred).summaries options number file statistics.blur := by
  cases t with
  | halted remaining reason => rfl
  | passed remaining pass =>
    have hactive : withinBudget options.budget statistics.blur remaining =
        withinBudget options.budget statistics remaining :=
      withinBudget_congr (fun id => by rw [statistics.applied_blur]) remaining
    refine congrArg (fun s => [s]) ((pass.summary_blur ..).trans ?_)
    rw [hactive]

end TurnReport

theorem blur_after (t : TurnReport σ) (options : RepairOptions) (number : Nat) (p : Progress σ)
    (n : Nat) : (t.after options number p n).blur =
      (t.seen .blurred).after options number p.blur n := by
  apply Progress.eq_of_fields
  · rw [after_document, TurnReport.document_seen]
    exact after_document ..
  · rw [after_statistics, ← TurnReport.entries_blur]
    exact (congrArg _ (after_statistics ..)).trans (Statistics.blur_enterAll ..)
  · rw [after_passes]
    refine (congrArg (List.map PassSummary.blur) (after_passes ..)).trans ?_
    rw [List.map_append, TurnReport.summaries_blur]
    rfl
  · rw [after_remaining, TurnReport.remaining_seen]
    exact after_remaining ..

/-- What a run looks like after some turns is told by what they look like. -/
theorem blur_run (p : Progress σ) (options : RepairOptions) (number : Nat)
    (ts : List (TurnReport σ)) : (p.run options number ts).blur =
      p.blur.run options number (ts.map (TurnReport.seen .blurred)) := by
  induction ts generalizing p number with
  | nil => rfl
  | cons t rest ih => rw [Progress.run, ih, blur_after, List.map_cons, Progress.run]

end Engine
end LintRepair
