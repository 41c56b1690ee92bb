import LintRepair.Proofs.Repair.Reports

/-!
# What a turn does

The checks of a turn run first, then it looks at the signal, and then at the budget; so how it ends
depends on no more than its file, its number, the repairs left and the looks taken. What a turn does
is its report, and a turn that has a report can be taken from every journal.
-/
namespace LintRepair

variable {σ : Type} {shop : Workshop σ} {d d' : Document σ} {budget budget' : Budget}
  {requested : RenderMode} {st : PassState} {vs : List Violation} {j j' : Journal}

namespace PassState

theorem speaks_crash (st : PassState) (v : Violation) (message : String) :
    (st.crash v message).Speaks :=
  (Run.speaks_log _).bind fun _ => Run.speaks_pure _

theorem speaks_invoke (shop : Workshop σ) (d : Document σ) (st : PassState) (v : Violation) :
    (st.invoke shop d v).Speaks := by
  unfold invoke
  split
  · exact speaks_crash ..
  split
  · exact speaks_crash ..
  · exact speaks_crash ..
  · exact Run.speaks_pure _
  split
  · exact Run.speaks_pure _
  split
  · exact speaks_crash ..
  · exact Run.speaks_pure _

theorem speaks_work (shop : Workshop σ) (d : Document σ) (budget : Budget) (st : PassState)
    (vs : List Violation) : (st.work shop d budget vs).Speaks := by
  induction vs generalizing st with
  | nil => exact Run.speaks_pure st
  | cons v rest ih =>
    rw [work]
    split
    · exact ih _
    · exact (speaks_invoke shop d st v).bind ih

theorem speaks_rounds (shop : Workshop σ) (d : Document σ) (budget : Budget) (st : PassState)
    (vs : List Violation) : (st.rounds shop d budget vs).Speaks := by
  induction hn : vs.length using Nat.strongRecOn generalizing vs st with
  | _ n ih =>
    by_cases hne : vs = []
    · rw [hne, rounds_nil]
      exact Run.speaks_pure st
    cases hsplit : d.tree.resolveConflicts vs st.claimed with
    | error f =>
      rw [rounds_of_error hne hsplit]
      exact Run.speaks_throw f
    | ok split =>
      rw [rounds_of_ok hne hsplit]
      have hlength := Tree.length_resolveConflicts hsplit
      split
      · exact Run.speaks_pure _
      · next hsome =>
        have hpos := List.length_pos_iff.mpr hsome
        exact (speaks_work ..).bind fun next => ih _ (by lia) next _ rfl

end PassState

theorem quiet_tryBatch (language : Language σ) (t : Tree) (sets : List EditSet)
    (mode : RenderMode) : (tryBatch language t sets mode).Quiet := by
  intro j
  obtain ⟨j', hj, hreads⟩ := tryBatch_yields language t sets mode j
  rwa [hj]

theorem quiet_runPass (shop : Workshop σ) (d : Document σ) (budget : Budget)
    (requested : RenderMode) (st : PassState) : (runPass shop d budget requested st).Quiet := by
  unfold runPass
  refine (st.speaks_rounds shop d budget _).quiet.bind fun final => ?_
  refine (Run.speaks_lift _).quiet.bind fun selection => ?_
  split
  · exact (Run.speaks_pure _).quiet
  refine (quiet_tryBatch _ _ _ _).bind fun result => ?_
  split
  · exact ((Run.speaks_log _).bind fun _ => Run.speaks_pure _).quiet
  split
  · exact ((Run.speaks_log _).bind fun _ => Run.speaks_pure _).quiet
  · exact (Run.speaks_pure _).quiet

/-- The checks find the same again, whenever they run and whatever the number of the file. -/
structure Analyzer.Deterministic (a : Analyzer σ) : Prop where
  finds : ∀ {d d' : Document σ} {rules : List String} {vs : List Violation} {j j' : Journal},
    d.Same d' → (a.runChecks d rules).Yields j vs j' →
      ∀ k, ∃ k', (a.runChecks d' rules).Yields k vs k'
  quiet : ∀ d rules, (a.runChecks d rules).Quiet

def PassOutcome.stop? : PassOutcome σ → Option StopReason
  | .committed _ => none
  | .stopped reason => some reason

/-- The abort signal is set, or the deadline has passed, after so many looks. -/
def RepairOptions.interruptedAfter (options : RepairOptions) (looks : Nat) : Bool :=
  (match options.abortAfter with
    | some n => decide (n ≤ looks)
    | none => false) || options.expired

/-- How often a turn looks at the signal. -/
def RepairOptions.looks (options : RepairOptions) : Nat :=
  if options.abortAfter.isSome then 1 else 0

namespace Engine

variable {e : Engine σ} {rules rules' : List String} {options options' : RepairOptions}
  {p p' : Progress σ} {number number' looks looks' : Nat} {stop : Option StopReason}
  {reason : StopReason}

theorem interrupted_yields (options : RepairOptions) (j : Journal) :
    ∃ j', (interrupted options).Yields j (options.interruptedAfter j.signalReads) j' ∧
      j'.signalReads = j.signalReads + options.looks := by
  unfold interrupted RepairOptions.interruptedAfter RepairOptions.looks
  cases options.abortAfter with
  | none => exact ⟨j, .bind (.pure false j) (.pure _ _), rfl⟩
  | some n => exact ⟨{ j with signalReads := j.signalReads + 1 }, rfl, rfl⟩

/-- Why a run stops in a turn before it makes a pass, the checks having run. -/
def Progress.verdict (p : Progress σ) (budget : Budget) (aborted : Bool) (number : Nat) :
    Option StopReason :=
  if p.remaining = [] then some .clean
  else if aborted then some .aborted
  else if withinBudget budget p.statistics p.remaining = [] then some .budgetExhausted
  else if budget.passes.reached (number - 1) then some .maxPasses
  else none

theorem Progress.verdict_eq (hremaining : p.remaining = p'.remaining)
    (happlied : ∀ id, p.statistics.applied id = p'.statistics.applied id) (budget : Budget)
    (aborted : Bool) (number : Nat) :
    p.verdict budget aborted number = p'.verdict budget aborted number := by
  have hactive : withinBudget budget p.statistics p.remaining =
      withinBudget budget p'.statistics p'.remaining := by
    unfold withinBudget
    simp only [hremaining, happlied]
  rw [Progress.verdict, Progress.verdict, hactive, hremaining]

/-- Looks at the signal, unless there is nothing left to repair. -/
def Progress.look (p : Progress σ) (options : RepairOptions) : Run Bool :=
  if p.remaining = [] then pure false else interrupted options

/-- The state of a run after a pass. -/
def Progress.close (p : Progress σ) (st : PassState) : PassOutcome σ → Progress σ
  | .committed next => { p.record st with document := next }
  | .stopped _ => p.record st

@[simp] theorem Progress.close_statistics (p : Progress σ) (st : PassState)
    (outcome : PassOutcome σ) : (p.close st outcome).statistics = st.statistics := by
  cases outcome <;> rfl

@[simp] theorem Progress.close_passes (p : Progress σ) (st : PassState) (outcome : PassOutcome σ) :
    (p.close st outcome).passes = p.passes ++ [st.pass.summary] := by
  cases outcome <;> rfl

@[simp] theorem Progress.close_remaining (p : Progress σ) (st : PassState)
    (outcome : PassOutcome σ) : (p.close st outcome).remaining = p.remaining := by
  cases outcome <;> rfl

/-- The pass of a turn. -/
def makePass (e : Engine σ) (options : RepairOptions) (number : Nat) (p : Progress σ) :
    Run (Progress σ × Option StopReason) := do
  let (st, outcome) ← runPass ⟨e.language, e.processors⟩ p.document options.budget options.mode
    (p.opening options.budget number)
  Run.log (engineSays .debug (p.document.tree.filePath ++ ": pass " ++ toString number)
    (some st.pass.summary.toValue))
  return (p.close st outcome, outcome.stop?)

theorem makePass_yields {outcome : PassOutcome σ} (h : (runPass ⟨e.language, e.processors⟩
      p.document options.budget options.mode (p.opening options.budget number)).Yields j
        (st, outcome) j') :
    ∃ k, (e.makePass options number p).Yields j (p.close st outcome, outcome.stop?) k :=
  ⟨_, h.bind (.bind (a := ()) (Run.yields_log.mpr rfl) (.pure _ _))⟩

/-- What a turn does once its checks have run. -/
def conclude (e : Engine σ) (options : RepairOptions) (number : Nat) (p : Progress σ) :
    Run (Progress σ × Option StopReason) := do
  let aborted ← p.look options
  match p.verdict options.budget aborted number with
  | some reason => return (p, some reason)
  | none => e.makePass options number p

theorem turn_eq (e : Engine σ) (rules : List String) (options : RepairOptions) (number : Nat)
    (p : Progress σ) : e.turn rules options number p =
      e.analyzer.runChecks p.document rules >>= fun remaining =>
        e.conclude options number (p.analyzed number remaining) := by
  refine congrArg _ (funext fun remaining => ?_)
  unfold conclude Progress.look Progress.verdict
  by_cases hclean : remaining = []
  · subst hclean
    rfl
  rw [if_neg (show ¬ (p.analyzed number remaining).remaining = [] from hclean)]
  refine (if_neg (by simpa using hclean)).trans (congrArg _ (funext fun aborted => ?_))
  rw [if_neg (show ¬ (p.analyzed number remaining).remaining = [] from hclean)]
  cases aborted with
  | true => rfl
  | false =>
    refine (if_neg Bool.false_ne_true).trans ?_
    rw [if_neg Bool.false_ne_true]
    by_cases hactive : withinBudget options.budget (p.analyzed number remaining).statistics
      (p.analyzed number remaining).remaining = []
    · rw [if_pos hactive]
      exact if_pos (List.isEmpty_iff.mpr hactive)
    rw [if_neg hactive]
    refine (if_neg fun hnil => hactive (List.isEmpty_iff.mp hnil)).trans ?_
    by_cases hcap : options.budget.passes.reached (number - 1) = true
    · rw [if_pos hcap, if_pos hcap]
      rfl
    rw [if_neg hcap, if_neg hcap]
    refine congrArg (runPass _ _ _ _ _ >>= ·) (funext fun x => ?_)
    obtain ⟨st, outcome⟩ := x
    cases outcome with
    | committed next => rfl
    | stopped reason => rfl

theorem look_yields (p : Progress σ) (options : RepairOptions) (number : Nat) (j : Journal) :
    ∃ aborted j', (p.look options).Yields j aborted j' ∧
      p.verdict options.budget aborted number =
        p.verdict options.budget (options.interruptedAfter j.signalReads) number ∧
      (p.remaining ≠ [] → j'.signalReads = j.signalReads + options.looks) := by
  unfold Progress.look
  by_cases hclean : p.remaining = []
  · refine ⟨false, j, ?_, ?_, fun hne => absurd hclean hne⟩
    · rw [if_pos hclean]
      exact .pure _ _
    · rw [Progress.verdict, Progress.verdict, if_pos hclean, if_pos hclean]
  · obtain ⟨j', hj, hreads⟩ := interrupted_yields options j
    refine ⟨_, j', ?_, rfl, fun _ => hreads⟩
    rw [if_neg hclean]
    exact hj

theorem ne_nil_of_verdict {aborted : Bool} (h : p.verdict budget aborted number = none) :
    p.remaining ≠ [] := by
  intro hclean
  rw [Progress.verdict, if_pos hclean] at h
  cases h

theorem verdict_ne_none {aborted : Bool} (h : budget.passes.reached (number - 1) = true)
    (p : Progress σ) : p.verdict budget aborted number ≠ none := by
  unfold Progress.verdict
  rw [if_pos h]
  split
  · exact fun heq => nomatch heq
  split
  · exact fun heq => nomatch heq
  split
  · exact fun heq => nomatch heq
  · exact fun heq => nomatch heq

/-- The state of a run after a pass with this report. -/
def Progress.after (p : Progress σ) (options : RepairOptions) (number : Nat) (pass : PassReport σ)
    (fresh : Nat) : Progress σ :=
  p.close (pass.closing options.mode p.document.tree.filePath number
    (withinBudget options.budget p.statistics p.remaining) p.statistics) (pass.result fresh)

/-- The checks of rules find these violations in a file. -/
def Finds (e : Engine σ) (d : Document σ) (rules : List String) (vs : List Violation) : Prop :=
  ∀ j, ∃ j', (e.analyzer.runChecks d rules).Yields j vs j'

/-- What a turn does, apart from the books. -/
inductive TurnReport (σ : Type) where
  | halted (remaining : List Violation) (reason : StopReason)
  | passed (remaining : List Violation) (pass : PassReport σ)

namespace TurnReport

def seen (view : Fate.View) : TurnReport σ → TurnReport σ
  | halted remaining reason => halted remaining reason
  | passed remaining pass => passed remaining (pass.seen view)

theorem seen_plain (t : TurnReport σ) : t.seen .plain = t := by
  cases t with
  | halted remaining reason => rfl
  | passed remaining pass => rw [seen, PassReport.seen_plain]

def stop? : TurnReport σ → Option StopReason
  | halted _ reason => some reason
  | passed _ pass => (pass.result 0).stop?

def after (t : TurnReport σ) (options : RepairOptions) (number : Nat) (p : Progress σ)
    (fresh : Nat) : Progress σ :=
  match t with
  | halted remaining _ => p.analyzed number remaining
  | passed remaining pass => (p.analyzed number remaining).after options number pass fresh

theorem stop?_result (pass : PassReport σ) (fresh : Nat) :
    (pass.result fresh).stop? = (pass.result 0).stop? := by
  unfold PassReport.result
  split
  · rfl
  · cases pass.batch <;> rfl

def remaining : TurnReport σ → List Violation
  | halted remaining _ => remaining
  | passed remaining _ => remaining

/-- The file with which a turn over a file ends. -/
def document (t : TurnReport σ) (d : Document σ) (fresh : Nat) : Document σ :=
  match t with
  | halted _ _ => d
  | passed _ pass => match pass.result fresh with
    | .committed next => next
    | .stopped _ => d

/-- The lines of the books that a turn is worth. -/
def entries (t : TurnReport σ) (options : RepairOptions) (number : Nat) (file : String) :
    List Statistics.Entry :=
  (if number = 1 then t.remaining.map .found else []) ++ match t with
    | halted _ _ => []
    | passed _ pass => pass.entries options.mode file number

/-- The passes that a turn adds to those of the run. -/
def summaries (t : TurnReport σ) (options : RepairOptions) (number : Nat) (file : String)
    (statistics : Statistics) : List PassSummary :=
  match t with
  | halted _ _ => []
  | passed remaining pass => [(pass.pass options.mode file number
      (withinBudget options.budget statistics remaining)).summary]

end TurnReport

theorem withinBudget_congr {statistics statistics' : Statistics}
    (h : ∀ id, budget.repairsPerRule.reached (statistics.applied id) =
      budget'.repairsPerRule.reached (statistics'.applied id)) (vs : List Violation) :
    withinBudget budget statistics vs = withinBudget budget' statistics' vs :=
  List.filter_congr fun v _ => congrArg _ (h v.ruleId)

theorem withinBudget_analyzed (budget : Budget) (p : Progress σ) (number : Nat)
    (remaining vs : List Violation) :
    withinBudget budget (p.analyzed number remaining).statistics vs =
      withinBudget budget p.statistics vs :=
  withinBudget_congr (fun id => by rw [applied_analyzed]) vs

theorem analyzed_statistics (p : Progress σ) (number : Nat) (remaining : List Violation) :
    (p.analyzed number remaining).statistics =
      p.statistics.enterAll (if number = 1 then remaining.map .found else []) := by
  unfold Progress.analyzed
  dsimp only
  split
  · exact Statistics.addFound_eq ..
  · rfl

section After

variable (t : TurnReport σ) (options : RepairOptions) (number : Nat) (p : Progress σ) (n : Nat)

theorem after_document : (t.after options number p n).document = t.document p.document n := by
  cases t with
  | halted remaining reason => rfl
  | passed remaining pass =>
    rw [TurnReport.after, Progress.after, TurnReport.document]
    cases pass.result n <;> rfl

theorem after_remaining : (t.after options number p n).remaining = t.remaining := by
  cases t with
  | halted remaining reason => rfl
  | passed remaining pass =>
    rw [TurnReport.after, Progress.after, Progress.close_remaining]
    rfl

theorem after_statistics : (t.after options number p n).statistics =
    p.statistics.enterAll (t.entries options number p.document.tree.filePath) := by
  unfold TurnReport.entries
  rw [Statistics.enterAll_append]
  cases t with
  | halted remaining reason => exact analyzed_statistics p number remaining
  | passed remaining pass =>
    rw [TurnReport.after, Progress.after, Progress.close_statistics, PassReport.closing,
      analyzed_statistics]
    rfl

theorem after_passes : (t.after options number p n).passes =
    p.passes ++ t.summaries options number p.document.tree.filePath p.statistics := by
  cases t with
  | halted remaining reason => exact (List.append_nil _).symm
  | passed remaining pass =>
    rw [TurnReport.after, Progress.after, Progress.close_passes, TurnReport.summaries,
      ← withinBudget_analyzed options.budget p number remaining]
    rfl

end After

namespace TurnReport

variable {t : TurnReport σ}

theorem filterMap_found {α : Type} {f : Statistics.Entry → Option α} (hf : ∀ v, f (.found v) = none)
    (number : Nat) (vs : List Violation) :
    (if number = 1 then vs.map Statistics.Entry.found else []).filterMap f = [] := by
  split
  · rw [List.filterMap_map, List.filterMap_eq_nil_iff]
    exact fun v _ => hf v
  · rfl

theorem filterMap_entries {α : Type} {f : Statistics.Entry → Option α}
    (hf : ∀ v, f (.found v) = none) (t : TurnReport σ) (options : RepairOptions) (number : Nat)
    (file : String) : (t.entries options number file).filterMap f = match t with
      | halted _ _ => []
      | passed _ pass => (pass.entries options.mode file number).filterMap f := by
  unfold entries
  rw [List.filterMap_append, filterMap_found hf, List.nil_append]
  cases t with
  | halted remaining reason => rfl
  | passed remaining pass => rfl

theorem document_same (h : d.Same d') (t : TurnReport σ) (n n' : Nat) :
    (t.document d n).Same (t.document d' n') := by
  cases t with
  | halted remaining reason => exact h
  | passed remaining pass =>
    unfold document PassReport.result
    by_cases hsome : pass.selection.taken = []
    · simpa only [if_pos hsome] using h
    · simp only [if_neg hsome]
      cases pass.batch with
      | error f => exact h
      | ok file => exact ⟨rfl, rfl⟩

theorem stop?_passed {vs : List Violation} {pass : PassReport σ}
    (h : (passed vs pass).stop? = some reason) :
    reason = .fixedPoint ∧ pass.selection.taken = [] ∨
      reason = .passFailure ∧ pass.selection.taken ≠ [] ∧ ∃ f, pass.batch = .error f := by
  rw [stop?, PassReport.result] at h
  by_cases hsome : pass.selection.taken = []
  · rw [if_pos hsome] at h
    exact .inl ⟨(Option.some.inj h).symm, hsome⟩
  · rw [if_neg hsome] at h
    cases hbatch : pass.batch with
    | error f =>
      rw [hbatch] at h
      exact .inr ⟨(Option.some.inj h).symm, hsome, f, rfl⟩
    | ok file =>
      rw [hbatch] at h
      cases h

theorem notMem_entries_of_stop (h : t.stop? = some reason) (options : RepairOptions) (number : Nat)
    (file : String) (v : Violation) :
    Statistics.Entry.applied v ∉ t.entries options number file := by
  intro hv
  unfold entries at hv
  rcases List.mem_append.mp hv with hfound | hpass
  · split at hfound
    · simp at hfound
    · exact List.not_mem_nil hfound
  cases t with
  | halted remaining reason => exact List.not_mem_nil hpass
  | passed remaining pass =>
    rcases List.mem_append.mp hpass with hhandled | hending
    · obtain ⟨g, -, hg⟩ := List.mem_filterMap.mp hhandled
      unfold Handling.entry? at hg
      split at hg <;> cases hg
    · rw [PassReport.ending] at hending
      rcases stop?_passed h with ⟨-, hnone⟩ | ⟨-, hsome, f, hbatch⟩
      · rw [if_pos hnone] at hending
        exact List.not_mem_nil hending
      · rw [if_neg hsome, hbatch] at hending
        cases List.mem_singleton.mp hending

theorem summaries_of_stop (h : t.stop? = some reason) {options : RepairOptions} {number : Nat}
    {file : String} {statistics : Statistics} {s : PassSummary}
    (hs : s ∈ t.summaries options number file statistics) :
    s.committed = false ∧ s.applied = 0 := by
  cases t with
  | halted remaining reason => exact absurd hs List.not_mem_nil
  | passed remaining pass =>
    rw [List.mem_singleton.mp hs, PassReport.pass]
    rcases stop?_passed h with ⟨-, hnone⟩ | ⟨-, hsome, f, hbatch⟩
    · rw [if_pos hnone]
      exact ⟨rfl, rfl⟩
    · rw [if_neg hsome, hbatch]
      exact ⟨rfl, rfl⟩

theorem document_of_stop (h : t.stop? = some reason) (d : Document σ) (n : Nat) :
    t.document d n = d := by
  cases t with
  | halted remaining reason => rfl
  | passed remaining pass =>
    rw [stop?, ← stop?_result pass n] at h
    rw [document]
    cases hresult : pass.result n with
    | committed next =>
      rw [hresult] at h
      cases h
    | stopped reason => rfl

end TurnReport

/-- A turn from this state comes to this report. -/
inductive Takes (e : Engine σ) (rules : List String) (options : RepairOptions) (number looks : Nat)
    (p : Progress σ) : TurnReport σ → Prop where
  | halted {remaining : List Violation} {reason : StopReason}
      (hfinds : e.Finds p.document rules remaining)
      (hverdict : (p.analyzed number remaining).verdict options.budget
        (options.interruptedAfter looks) number = some reason) :
      Takes e rules options number looks p (.halted remaining reason)
  | passed {remaining : List Violation} {pass : PassReport σ}
      (hfinds : e.Finds p.document rules remaining)
      (hverdict : (p.analyzed number remaining).verdict options.budget
        (options.interruptedAfter looks) number = none)
      (hpass : Reports ⟨e.language, e.processors⟩ p.document options.budget options.mode
        (withinBudget options.budget (p.analyzed number remaining).statistics remaining)
        (p.analyzed number remaining).statistics pass) :
      Takes e rules options number looks p (.passed remaining pass)

theorem Takes.finds {t : TurnReport σ} (h : e.Takes rules options number looks p t) :
    e.Finds p.document rules t.remaining := by
  cases h with
  | halted hfinds => exact hfinds
  | passed hfinds => exact hfinds

theorem Takes.remaining_ne_nil {t : TurnReport σ} (h : e.Takes rules options number looks p t)
    (hstop : t.stop? = none) : t.remaining ≠ [] := by
  cases h with
  | halted => cases hstop
  | passed hfinds hverdict => exact ne_nil_of_verdict hverdict

/-- Every turn that ends has a report, which tells all about it. -/
theorem exists_takes (he : e.analyzer.Deterministic)
    (h : (e.turn rules options number p).Yields j (p', stop) j') :
    ∃ t fresh, e.Takes rules options number j.signalReads p t ∧
      p' = t.after options number p fresh ∧ stop = t.stop? ∧
      (stop = none → j'.signalReads = j.signalReads + options.looks) := by
  rw [turn_eq, Run.yields_bind] at h
  obtain ⟨remaining, k, hchecks, h⟩ := h
  have hfinds : e.Finds p.document rules remaining := fun k => he.finds (.refl _) hchecks k
  rw [← (he.quiet _ _).signalReads_eq hchecks]
  rw [conclude, Run.yields_bind] at h
  obtain ⟨aborted, k', hlook, h⟩ := h
  obtain ⟨aborted', k'', hlook', hverdict, hreads⟩ :=
    look_yields (p.analyzed number remaining) options number k
  obtain rfl := hlook.unique hlook'
  obtain rfl := hlook.unique_journal hlook'
  split at h
  · next reason hreason =>
    cases (Run.yields_pure.mp h).1
    exact ⟨.halted remaining reason, 0, .halted hfinds (hverdict ▸ hreason), rfl, rfl,
      fun hnone => nomatch hnone⟩
  · next hnone =>
    rw [← hreads (ne_nil_of_verdict hnone)]
    simp only [makePass, Run.yields_bind] at h
    obtain ⟨⟨st, outcome⟩, k₁, hpass, ⟨⟩, k₂, hlog, h⟩ := h
    obtain ⟨heq, rfl⟩ := Run.yields_pure.mp h
    obtain ⟨pass, fresh, hreports, rfl, rfl⟩ := exists_report hpass
    cases heq
    refine ⟨.passed remaining pass, fresh, .passed hfinds (hverdict ▸ hnone) hreports, rfl,
      TurnReport.stop?_result pass fresh, fun _ => ?_⟩
    rw [← (quiet_runPass _ _ _ _ _).signalReads_eq hpass, ← Run.yields_log.mp hlog]

theorem Takes.yields {t : TurnReport σ} (h : e.Takes rules options number looks p t)
    (he : e.analyzer.Deterministic) (hj : j.signalReads = looks) :
    ∃ fresh j', (e.turn rules options number p).Yields j (t.after options number p fresh, t.stop?)
      j' := by
  rw [turn_eq]
  cases h with
  | @halted remaining reason hfinds hverdict =>
    obtain ⟨k, hchecks⟩ := hfinds j
    obtain ⟨aborted, k', hlook, hsame, -⟩ :=
      look_yields (p.analyzed number remaining) options number k
    rw [(he.quiet _ _).signalReads_eq hchecks, hj, hverdict] at hsame
    refine ⟨0, k', hchecks.bind (hlook.bind ?_)⟩
    rw [hsame]
    exact .pure _ _
  | @passed remaining pass hfinds hverdict hpass =>
    obtain ⟨k, hchecks⟩ := hfinds j
    obtain ⟨aborted, k', hlook, hsame, -⟩ :=
      look_yields (p.analyzed number remaining) options number k
    rw [(he.quiet _ _).signalReads_eq hchecks, hj, hverdict] at hsame
    obtain ⟨x, k'', hrun, fresh, rfl⟩ := hpass.gives number k'
    obtain ⟨k₁, hmake⟩ := makePass_yields (p := p.analyzed number remaining) hrun
    refine ⟨fresh, k₁, hchecks.bind (hlook.bind ?_)⟩
    rw [hsame, TurnReport.stop?, ← TurnReport.stop?_result pass fresh]
    exact hmake

end Engine
end LintRepair
