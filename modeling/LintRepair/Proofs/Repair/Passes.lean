import LintRepair.Proofs.Repair.Batch
import LintRepair.Proofs.Repair.Discipline
import LintRepair.Repair.Engine

/-!
# The passes of a run

Every way in which a pass and a turn of the loop can come out, and the states between two turns.
What holds of a whole run is proved along `Engine.Reached`, one committed pass at a time.
-/
namespace LintRepair

variable {σ : Type} {shop : Workshop σ} {d next : Document σ} {budget : Budget}
  {requested : RenderMode} {st st' final : PassState} {outcome : PassOutcome σ} {j j' : Journal}

/-- The books of a pass once the edit sets of its batch are chosen. -/
def Pass.chosen (p : Pass) (requested : RenderMode) (selection : Split EditSet) : Pass :=
  { p with
    selected := selection.taken
    conflicts := selection.waiting
    renderMode := some (RenderDecision.of requested selection.taken).mode }

namespace Statistics

/-- Notes the rules that made the render mode differ from the requested one, if there are any. -/
def addDecision (s : Statistics) (file : String) (number : Nat) (decision : RenderDecision) :
    Statistics :=
  if !decision.fallbackRuleIds.isEmpty then s.addFallback ⟨file, number, decision.fallbackRuleIds⟩
  else s

def addBatch (s : Statistics) (sets : List EditSet) : Statistics :=
  sets.foldl (fun s set => s.addApplied set.violation) s

theorem applied_addApplied (s : Statistics) (v : Violation) (id : String) :
    (s.addApplied v).applied id = s.applied id + if v.ruleId = id then 1 else 0 := by
  rw [applied, addApplied, get?_update (fun _ => by rfl)]
  by_cases h : id = v.ruleId
  · subst h
    rw [if_pos rfl, if_pos rfl, applied]
    cases s.get? v.ruleId <;> rfl
  · rw [if_neg h, if_neg (Ne.symm h)]
    rfl

theorem applied_addBatch (s : Statistics) (sets : List EditSet) (id : String) :
    (s.addBatch sets).applied id = s.applied id + sets.countP fun set => set.ruleId = id := by
  induction sets generalizing s with
  | nil => rfl
  | cons set rest ih =>
    rw [addBatch, List.foldl_cons, ← addBatch, ih, applied_addApplied, List.countP_cons]
    simp only [EditSet.ruleId]
    lia

theorem applied_addDecision (s : Statistics) (file : String) (number : Nat)
    (decision : RenderDecision) (id : String) :
    (s.addDecision file number decision).applied id = s.applied id := by
  unfold addDecision
  split <;> rfl

theorem applied_addFound (s : Statistics) (vs : List Violation) (id : String) :
    (s.addFound vs).applied id = s.applied id := by
  unfold addFound
  induction vs generalizing s with
  | nil => rfl
  | cons v rest ih =>
    rw [List.foldl_cons, ih]
    exact applied_update (fun _ => rfl) fun _ => rfl

theorem applied_track (s : Statistics) (ids : List String) (id : String) :
    (s.track ids).applied id = s.applied id := by
  unfold track
  induction ids generalizing s with
  | nil => rfl
  | cons x rest ih =>
    rw [List.foldl_cons, ih]
    exact applied_update (fun _ => rfl) fun _ => rfl

end Statistics

/-- How a pass ends after its rounds: nothing was chosen, the batch was given up, or it was
committed and counted. -/
inductive Concluded (shop : Workshop σ) (d : Document σ) (requested : RenderMode)
    (final : PassState) (selection : Split EditSet) : PassState → PassOutcome σ → Prop where
  | fixedPoint (hnone : selection.taken = []) :
      Concluded shop d requested final selection
        { final with pass :=
          { final.pass with selected := selection.taken, conflicts := selection.waiting } }
        (.stopped .fixedPoint)
  | failed (hsome : selection.taken ≠ []) {f : Fault} {k k' : Journal}
      (hbatch : (tryBatch shop.language d.tree selection.taken
        (RenderDecision.of requested selection.taken).mode).Yields k (.error f) k') :
      Concluded shop d requested final selection
        { final with
          pass := final.pass.chosen requested selection
          statistics := final.statistics.addFailure
            ⟨d.tree.filePath, final.pass.number, f.codeText, f.message⟩ }
        (.stopped .passFailure)
  | committed (hsome : selection.taken ≠ []) {next : Document σ} {k k' : Journal}
      (hbatch : (tryBatch shop.language d.tree selection.taken
        (RenderDecision.of requested selection.taken).mode).Yields k (.ok next) k') :
      Concluded shop d requested final selection
        { final with
          pass := { final.pass.chosen requested selection with committed := true }
          statistics := (final.statistics.addDecision d.tree.filePath final.pass.number
            (RenderDecision.of requested selection.taken)).addBatch selection.taken }
        (.committed next)

theorem Concluded.committed_spec {selection : Split EditSet}
    (h : Concluded shop d requested final selection st' (.committed next)) :
    selection.taken ≠ [] ∧ ∀ id, st'.statistics.applied id =
      final.statistics.applied id + selection.taken.countP fun set => set.ruleId = id := by
  cases h with
  | committed hsome =>
    refine ⟨hsome, fun id => ?_⟩
    rw [Statistics.applied_addBatch, Statistics.applied_addDecision]

/-- A pass is its rounds and one of the three ends. -/
theorem runPass_cases (h : (runPass shop d budget requested st).Yields j (st', outcome) j') :
    ∃ rounds final selection, Rounds shop d budget st.pass.violations st rounds final ∧
      d.tree.selectCompatible final.pass.produced = .ok selection ∧
      Concluded shop d requested final selection st' outcome := by
  unfold runPass at h
  simp only [Run.yields_bind, Run.yields_lift] at h
  obtain ⟨final, k, hrounds, selection, k', ⟨hselect, rfl⟩, h⟩ := h
  obtain ⟨rounds, hrounds⟩ := exists_rounds_of_yields hrounds
  refine ⟨rounds, final, selection, hrounds, hselect, ?_⟩
  split at h
  · next hempty =>
    obtain ⟨hst, -⟩ := Run.yields_pure.mp h
    cases hst
    exact .fixedPoint (List.isEmpty_iff.mp hempty)
  · next hsome =>
    have hsome : selection.taken ≠ [] := fun hnone => hsome (List.isEmpty_iff.mpr hnone)
    rw [Run.yields_bind] at h
    obtain ⟨result, k'', hbatch, h⟩ := h
    split at h
    · rw [Run.yields_bind] at h
      obtain ⟨_, _, _, h⟩ := h
      cases (Run.yields_pure.mp h).1
      exact .failed hsome hbatch
    · have hend : Concluded shop d requested final selection _ _ := .committed hsome hbatch
      unfold Statistics.addDecision at hend
      split at h
      · next hfallback =>
        rw [Run.yields_bind] at h
        obtain ⟨_, _, _, h⟩ := h
        cases (Run.yields_pure.mp h).1
        rwa [if_pos hfallback] at hend
      · next hfallback =>
        cases (Run.yields_pure.mp h).1
        rwa [if_neg hfallback] at hend

namespace Engine

/-- The violations whose rule may still be repaired. -/
def withinBudget (budget : Budget) (statistics : Statistics) (vs : List Violation) :
    List Violation :=
  vs.filter fun v => !budget.repairsPerRule.reached (statistics.applied v.ruleId)

def Progress.opening (p : Progress σ) (budget : Budget) (number : Nat) : PassState :=
  .opening p.document.tree.filePath number
    (withinBudget budget p.statistics p.remaining) p.statistics

/-- The state of a run once the checks of a turn have found the remaining violations. -/
def Progress.analyzed (p : Progress σ) (number : Nat) (remaining : List Violation) : Progress σ :=
  { p with
    remaining
    statistics := if number = 1 then p.statistics.addFound remaining else p.statistics }

/-- The state of a run with the books of one more pass. -/
def Progress.record (p : Progress σ) (st : PassState) : Progress σ :=
  { p with statistics := st.statistics, passes := p.passes ++ [st.pass.summary] }

variable {e : Engine σ} {rules : List String} {options : RepairOptions} {p p' : Progress σ}
  {number : Nat} {stop : Option StopReason}

/-- How a turn ends once its checks have run. -/
inductive Turned (e : Engine σ) (options : RepairOptions) (number : Nat) (p : Progress σ) :
    Progress σ → Option StopReason → Prop where
  | clean (hclean : p.remaining = []) : Turned e options number p p (some .clean)
  | aborted (hne : p.remaining ≠ []) : Turned e options number p p (some .aborted)
  | exhausted (hne : p.remaining ≠ [])
      (hactive : withinBudget options.budget p.statistics p.remaining = []) :
      Turned e options number p p (some .budgetExhausted)
  | capped (hne : p.remaining ≠ []) (hcap : options.budget.passes.reached (number - 1) = true) :
      Turned e options number p p (some .maxPasses)
  | stopped (hopen : options.budget.passes.reached (number - 1) = false)
      {st : PassState} {reason : StopReason} {k k' : Journal}
      (hpass : (runPass ⟨e.language, e.processors⟩ p.document options.budget options.mode
        (p.opening options.budget number)).Yields k (st, .stopped reason) k') :
      Turned e options number p (p.record st) (some reason)
  | committed (hopen : options.budget.passes.reached (number - 1) = false)
      {st : PassState} {next : Document σ} {k k' : Journal}
      (hpass : (runPass ⟨e.language, e.processors⟩ p.document options.budget options.mode
        (p.opening options.budget number)).Yields k (st, .committed next) k') :
      Turned e options number p { p.record st with document := next } none

theorem turn_cases (h : (e.turn rules options number p).Yields j (p', stop) j') :
    ∃ remaining k, (e.analyzer.runChecks p.document rules).Yields j remaining k ∧
      Turned e options number (p.analyzed number remaining) p' stop := by
  unfold turn at h
  simp only [Run.yields_bind] at h
  obtain ⟨remaining, k, hchecks, h⟩ := h
  refine ⟨remaining, k, hchecks, ?_⟩
  unfold Progress.analyzed
  generalize (if number = 1 then p.statistics.addFound remaining else p.statistics) = statistics
    at h ⊢
  split at h
  · next hclean =>
    cases (Run.yields_pure.mp h).1
    exact .clean (List.isEmpty_iff.mp hclean)
  next hne =>
  have hne : remaining ≠ [] := fun hnil => hne (List.isEmpty_iff.mpr hnil)
  rw [Run.yields_bind] at h
  obtain ⟨aborted, k', -, h⟩ := h
  split at h
  · cases (Run.yields_pure.mp h).1
    exact .aborted hne
  split at h
  · next hactive =>
    cases (Run.yields_pure.mp h).1
    exact .exhausted hne (List.isEmpty_iff.mp hactive)
  split at h
  · next hcap =>
    cases (Run.yields_pure.mp h).1
    exact .capped hne hcap
  next hopen =>
  simp only [Run.yields_bind] at h
  obtain ⟨⟨st, outcome⟩, k₁, hpass, -, k₂, -, h⟩ := h
  cases outcome with
  | stopped reason =>
    cases (Run.yields_pure.mp h).1
    exact .stopped (Bool.not_eq_true _ ▸ hopen) hpass
  | committed next =>
    cases (Run.yields_pure.mp h).1
    exact .committed (Bool.not_eq_true _ ▸ hopen) hpass

def start (document : Document σ) (rules : List String) : Progress σ :=
  { document, statistics := Statistics.track {} rules }

/-- The states in which the loop of a run begins its turns, with the number of the turn. -/
inductive Reached {τ : Type} [Throwable τ] (e : Engine σ τ) (rules : List String) (options : RepairOptions)
    (d : Document σ) (j₀ : Journal) : Nat → Progress σ → Journal → Prop where
  | start : Reached e rules options d j₀ 1 (start d rules) j₀
  | next {number : Nat} {p p' : Progress σ} {j k k' : Journal}
      (h : Reached e rules options d j₀ number p j)
      (hturn : (e.turn rules options number p).Yields j (p', none) k)
      (hrelease : (releaseUnless d.number p.document).Yields k () k') :
      Reached e rules options d j₀ (number + 1) p' k'

/-- The loop of a run has found the remaining violations of a file, and a pass over it would begin
in this state. -/
def Begins {τ : Type} [Throwable τ] (e : Engine σ τ) (rules : List String)
    (options : RepairOptions) (d : Document σ) (j₀ : Journal) (d' : Document σ) (st : PassState) :
    Prop :=
  ∃ number p remaining k k', e.Reached rules options d j₀ number p k ∧
    (e.analyzer.runChecks p.document rules).Yields k remaining k' ∧ d' = p.document ∧
    st = (p.analyzed number remaining).opening options.budget number

theorem Reached.of_turns {j₀ : Journal} {fuel : Nat} {reason : StopReason}
    (hp : e.Reached rules options d j₀ number p j)
    (h : (e.turns rules options d.number fuel number p).Yields j (p', reason) j') :
    ∃ n q k k', e.Reached rules options d j₀ n q k ∧
      (e.turn rules options n q).Yields k (p', some reason) k' := by
  induction fuel generalizing number p j with
  | zero => exact absurd h Run.not_yields_bind_throw
  | succ fuel ih =>
    rw [turns, Run.yields_bind] at h
    obtain ⟨⟨next, stop⟩, k, hturn, h⟩ := h
    rw [Run.yields_tryCatch fun _ _ _ _ => Run.not_yields_bind_throw] at hturn
    cases stop with
    | some reason =>
      cases (Run.yields_pure.mp h).1
      exact ⟨number, p, j, k, hp, hturn⟩
    | none =>
      simp only [Run.yields_bind] at h
      obtain ⟨_, k', hrelease, h⟩ := h
      exact ih (hp.next hturn hrelease) h

theorem mem_firstOccurrences {ids : List String} {id : String} :
    id ∈ firstOccurrences ids ↔ id ∈ ids := by
  rw [firstOccurrences, mem_foldl_unless_contains (fun x : String => x) ids []]
  simp

theorem nodup_firstOccurrences (ids : List String) : (firstOccurrences ids).Nodup := by
  have hfold : ∀ seen : List String, seen.Nodup →
      (ids.foldl (fun seen x => if seen.contains x then seen else seen ++ [x]) seen).Nodup := by
    induction ids with
    | nil => exact fun _ h => h
    | cons id rest ih =>
      intro seen hseen
      rw [List.foldl_cons]
      refine ih _ ?_
      split
      · exact hseen
      · next hnew =>
        rw [List.contains_iff_mem] at hnew
        rw [List.nodup_append]
        refine ⟨hseen, List.nodup_singleton id, fun x hx y hy hxy => hnew ?_⟩
        rwa [← List.mem_singleton.mp hy, ← hxy]
  exact hfold [] List.nodup_nil

theorem firstOccurrences_eq_self {ids : List String} (h : ids.Nodup) :
    firstOccurrences ids = ids := by
  have hfold : ∀ seen : List String, (seen ++ ids).Nodup →
      ids.foldl (fun seen x => if seen.contains x then seen else seen ++ [x]) seen = seen ++ ids := by
    clear h
    induction ids with
    | nil => exact fun seen _ => (List.append_nil seen).symm
    | cons id rest ih =>
      intro seen hseen
      have hnew : ¬ seen.contains id = true := by
        rw [List.contains_iff_mem]
        exact fun hmem => (List.nodup_append.mp hseen).2.2 id hmem id List.mem_cons_self rfl
      rw [List.foldl_cons, if_neg hnew]
      rw [List.append_cons] at hseen
      rw [ih _ hseen, ← List.append_cons]
  exact hfold [] h

theorem validateRules_eq_ok_iff {ids : List String} : e.validateRules ids = .ok rules ↔
    rules = firstOccurrences ids ∧ ids ≠ [] ∧
      ∀ id ∈ ids, e.analyzer.supports id = true ∧ e.processors.has id = true := by
  have hempty : (firstOccurrences ids).isEmpty = true ↔ ids = [] := by
    rw [List.isEmpty_iff, List.eq_nil_iff_forall_not_mem, List.eq_nil_iff_forall_not_mem]
    simp only [mem_firstOccurrences]
  have hall : ∀ f : String → Bool, ((firstOccurrences ids).filter fun id => !f id).isEmpty = true ↔
      ∀ id ∈ ids, f id = true := by
    intro f
    simp only [List.isEmpty_iff, List.filter_eq_nil_iff, mem_firstOccurrences, Bool.not_eq_true',
      Bool.not_eq_false]
  unfold validateRules validateAnalysisRules
  dsimp only
  by_cases hnone : ids = []
  · rw [if_pos (hempty.mpr hnone)]
    refine iff_of_false (fun h => nomatch h) fun h => h.2.1 hnone
  rw [if_neg fun h => hnone (hempty.mp h)]
  by_cases hsupports : ∀ id ∈ ids, e.analyzer.supports id = true
  · rw [if_pos ((hall _).mpr hsupports)]
    simp only [bind, Except.bind]
    by_cases hhas : ∀ id ∈ ids, e.processors.has id = true
    · rw [if_pos ((hall _).mpr hhas)]
      refine ⟨fun h => ⟨(Except.ok.inj h).symm, hnone, fun id hid => ⟨hsupports id hid, hhas id hid⟩⟩,
        fun h => congrArg _ h.1.symm⟩
    · rw [if_neg fun h => hhas ((hall _).mp h)]
      exact iff_of_false (fun h => nomatch h) fun h => hhas fun id hid => (h.2.2 id hid).2
  · rw [if_neg fun h => hsupports ((hall _).mp h)]
    exact iff_of_false (fun h => nomatch h) fun h => hsupports fun id hid => (h.2.2 id hid).1

theorem validateRules_spec {ids : List String} (h : e.validateRules ids = .ok rules) :
    rules = firstOccurrences ids ∧
      ∀ id ∈ ids, ∃ processor, e.processors.get? id = some processor := by
  obtain ⟨hrules, -, hall⟩ := validateRules_eq_ok_iff.mp h
  exact ⟨hrules, fun id hid => Option.isSome_iff_exists.mp (hall id hid).2⟩

theorem validateRules_again {ids : List String} (h : e.validateRules ids = .ok rules) :
    e.validateRules rules = .ok rules := by
  obtain ⟨rfl, hne, hall⟩ := validateRules_eq_ok_iff.mp h
  refine validateRules_eq_ok_iff.mpr
    ⟨(firstOccurrences_eq_self (nodup_firstOccurrences ids)).symm, ?_, ?_⟩
  · obtain ⟨id, hid⟩ := List.exists_mem_of_ne_nil ids hne
    exact List.ne_nil_of_mem (mem_firstOccurrences.mpr hid)
  · exact fun id hid => hall id (mem_firstOccurrences.mp hid)

theorem validateAnalysisRules_eq {ids : List String} (h : e.validateRules ids = .ok rules) :
    e.validateAnalysisRules ids = .ok rules := by
  unfold validateRules at h
  cases hanalysis : e.validateAnalysisRules ids with
  | error f =>
    rw [hanalysis] at h
    cases h
  | ok unique =>
    rw [hanalysis] at h
    simp only [bind, Except.bind] at h
    split at h
    · exact h
    · cases h

theorem repair_cases {ids : List String} {r : RepairResult σ}
    (h : (e.repair d ids options).Yields j r j') :
    ∃ rules n q p k k', e.validateRules ids = .ok rules ∧
      e.Reached rules options d j n q k ∧
      (e.turn rules options n q).Yields k (p, some r.stopReason) k' ∧
      r.document = p.document ∧ r.passes = p.passes ∧ r.remaining = p.remaining ∧
      r.statistics = p.statistics.setRemaining p.remaining := by
  unfold repair at h
  simp only [Run.yields_bind, Run.yields_lift, Run.yields_pure] at h
  obtain ⟨rules, k, ⟨hrules, rfl⟩, ⟨p, reason⟩, k', hturns, rfl, rfl⟩ := h
  obtain ⟨n, q, k₁, k₂, hreached, hturn⟩ := Reached.start.of_turns hturns
  exact ⟨rules, n, q, p, k₁, k₂, hrules, hreached, hturn, rfl, rfl, rfl, rfl⟩

def innerViolation : Violation := ⟨"r", "f", 1, "b", "m", .warning, ⟨1, 1, 0, 0⟩⟩

/-- An engine that reads every text as two nested nodes, always flags the inner one, and replaces
it. -/
def relabeling : Engine Unit where
  language := ⟨fun _ _ => .ok (⟨"a", none, none, .node "b" none none .nil .nil⟩, ()),
    fun _ _ => .ok [], fun _ => default⟩
  analyzer := ⟨fun _ => true, fun d rules =>
    pure (if rules.contains "r" && d.tree.isValid 1 then [innerViolation] else [])⟩
  processors := .ofList [("r", ⟨"r", "r", "", true, fun c =>
    .ok (.applied [.replace c.node (.leaf "c" [])])⟩)]

/-- One repair a rule and as many passes as it takes. -/
def frugal : RepairOptions := { budget := ⟨.atMost 1, .unbounded⟩ }

def relabelingSet : EditSet := ⟨innerViolation, [.replace 1 (.leaf "c" [])], true⟩

def relabelingBooks : Statistics := (Statistics.track {} ["r"]).addFound [innerViolation]

theorem relabelingSet_lands :
    ∃ edited, nestedDocument.tree.applyEditSets [relabelingSet] = .ok edited := by
  have ht : nestedDocument.tree.WellFormed := Tree.wellFormed_ofTemplate ..
  obtain ⟨s, hs⟩ := Tree.exists_seat ht (p := 0) (h := 1) ⟨_, rfl, rfl⟩ "replace"
  have hone : ∀ x ∈ [relabelingSet], ∀ e ∈ x.edits,
      ∃ n, nestedDocument.tree.node? e.touched = some n := by
    simp only [List.mem_singleton, forall_eq, relabelingSet, Edit.touched]
    exact ⟨_, rfl⟩
  have hplan : nestedDocument.tree.plan [relabelingSet] =
      nestedDocument.tree.placed [relabelingSet] := List.mergeSort_singleton _
  have happly : Edit.apply nestedDocument.tree (.replace 1 (.leaf "c" [])) =
      .ok (nestedDocument.tree.splice s (.replace 1 (.leaf "c" []))) :=
    Tree.apply_eq_ok_iff.mpr ⟨s, hs, rfl⟩
  refine ⟨nestedDocument.tree.splice s (.replace 1 (.leaf "c" [])), ?_⟩
  rw [Tree.applyEditSets, Tree.planEdits_eq hone, hplan]
  simp only [bind, Except.bind, Tree.placed, relabelingSet, List.flatMap_cons, List.flatMap_nil,
    List.map_cons, List.map_nil, List.append_nil, List.zipIdx_cons, List.zipIdx_nil,
    Tree.placement, Tree.applyPlanned, happly]
  rfl

theorem relabeling_pass :
    ∃ st next j, (runPass ⟨relabeling.language, relabeling.processors⟩ nestedDocument frugal.budget
      frugal.mode (.opening "f" 1 [innerViolation] relabelingBooks)).Yields {}
        (st, .committed next) j ∧
      st.statistics = relabelingBooks.addBatch [relabelingSet] ∧ st.pass.committed = true ∧
      next.tree.isValid 1 = true := by
  let shop : Workshop Unit := ⟨relabeling.language, relabeling.processors⟩
  have hvs : nestedDocument.tree.Consistent [innerViolation] :=
    consistent_nestedViolations.mono (List.cons_subset_cons _ (List.nil_subset _))
  have hresolve : nestedDocument.tree.resolveConflicts [innerViolation] [] =
      .ok ⟨[innerViolation], []⟩ := by
    rw [Tree.resolveConflicts, Tree.inRepairOrder_of_pairwise hvs (by decide)]
    rfl
  obtain ⟨rounds, final, hrounds, hproduced, hstatistics⟩ : ∃ rounds final,
      Rounds shop nestedDocument frugal.budget [innerViolation]
        (.opening "f" 1 [innerViolation] relabelingBooks) rounds final ∧
      final.pass.produced = [relabelingSet] ∧ final.statistics = relabelingBooks :=
    ⟨_, _, .round (List.cons_ne_nil _ _) hresolve (List.cons_ne_nil _ _) (.done _), rfl, rfl⟩
  obtain ⟨j₁, hj₁⟩ := hrounds.yields {}
  have hselect : nestedDocument.tree.selectCompatible final.pass.produced =
      .ok ⟨[relabelingSet], []⟩ := by
    rw [hproduced]
    rfl
  obtain ⟨edited, hedited⟩ := relabelingSet_lands
  obtain ⟨next, j₂, htry, hvalid⟩ : ∃ next j₂, (tryBatch relabeling.language nestedDocument.tree
      [relabelingSet] .targeted).Yields j₁ (.ok next) j₂ ∧ next.tree.isValid 1 = true := by
    unfold tryBatch
    rw [hedited]
    exact ⟨_, _, rfl, rfl⟩
  refine ⟨{ final with
      pass := { final.pass.chosen .targeted ⟨[relabelingSet], []⟩ with committed := true }
      statistics := final.statistics.addBatch [relabelingSet] }, next, j₂, ?_,
    by rw [hstatistics], rfl, hvalid⟩
  exact .bind hj₁ (.bind (Run.yields_lift.mpr ⟨hselect, rfl⟩) (.bind htry (.pure _ _)))

theorem relabeling_run : ∃ r j', (relabeling.repair nestedDocument ["r"] frugal).Yields {} r j' ∧
    r.stopReason = .budgetExhausted ∧ r.passes.map (·.committed) = [true] := by
  obtain ⟨st, next, j₂, hpass, hst, hcommitted, hvalid⟩ := relabeling_pass
  have hfirst : ∃ j₃, (relabeling.turn ["r"] frugal 1 (start nestedDocument ["r"])).Yields {}
      ({ ((start nestedDocument ["r"]).analyzed 1 [innerViolation]).record st with
        document := next }, none) j₃ :=
    ⟨_, .bind (.pure [innerViolation] {}) (.bind (.bind (.pure false {}) (.pure false {}))
      (.bind hpass (.bind (a := ()) (Run.yields_log.mpr rfl) (.pure _ _))))⟩
  obtain ⟨j₃, hfirst⟩ := hfirst
  obtain ⟨j₄, hrelease⟩ : ∃ j₄, (releaseUnless nestedDocument.number nestedDocument).Yields j₃ ()
      j₄ := ⟨_, rfl⟩
  generalize hp : ({ ((start nestedDocument ["r"]).analyzed 1 [innerViolation]).record st with
    document := next } : Progress Unit) = p at hfirst
  have happlied : withinBudget frugal.budget p.statistics [innerViolation] = [] := by
    rw [← hp]
    change withinBudget frugal.budget st.statistics [innerViolation] = []
    rw [hst]
    decide
  have hsecond : (relabeling.turn ["r"] frugal 2 p).Yields j₄
      ({ p with remaining := [innerViolation] }, some .budgetExhausted) j₄ := by
    have hchecks : (relabeling.analyzer.runChecks p.document ["r"]).Yields j₄ [innerViolation] j₄ := by
      have hrun : relabeling.analyzer.runChecks next ["r"] = pure [innerViolation] :=
        congrArg pure (if_pos (by rw [hvalid]; rfl))
      rw [← hp, hrun]
      exact .pure _ _
    refine .bind hchecks (.bind (.bind (.pure false j₄) (.pure false j₄)) ?_)
    unfold withinBudget at happlied
    rw [if_neg Bool.false_ne_true]
    simp only [if_neg (show ¬ (2 : Nat) = 1 by decide), happlied]
    exact .pure _ _
  have hturns : (relabeling.turns ["r"] frugal nestedDocument.number 3 1
      (start nestedDocument ["r"])).Yields {}
        ({ p with remaining := [innerViolation] }, .budgetExhausted) j₄ := by
    have hcaught : ∀ (q : Progress Unit) (f : Fault) (j : Journal)
        (x : Progress Unit × Option StopReason) (j' : Journal),
        ¬ (releaseUnless nestedDocument.number q.document >>= fun _ => throw f :
          Run (Progress Unit × Option StopReason)).Yields j x j' :=
      fun _ _ _ _ _ => Run.not_yields_bind_throw
    refine .bind ((Run.yields_tryCatch (hcaught _)).mpr hfirst) (.bind hrelease ?_)
    exact .bind ((Run.yields_tryCatch (hcaught _)).mpr hsecond) (.pure _ _)
  refine ⟨_, j₄, .bind (Run.yields_lift.mpr ⟨rfl, rfl⟩) (.bind hturns (.pure _ _)), rfl, ?_⟩
  rw [← hp]
  exact congrArg (fun b => [b]) hcommitted

end Engine
end LintRepair
