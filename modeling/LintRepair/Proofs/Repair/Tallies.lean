import LintRepair.Proofs.Repair.Conservation
import LintRepair.Proofs.Repair.Resilience
import LintRepair.Proofs.Repair.Totals

/-!
# The books agree with the passes

A run keeps two accounts: the summaries of its passes and the statistics. A pass writes its lines
into the statistics in two places, while its rounds last and once its batch is settled; what the
lines of a pass are worth is what its summary says.
-/
namespace LintRepair

variable {σ : Type} {d : Document σ} {budget : Budget} {requested : RenderMode}
  {vs : List Violation} {statistics : Statistics} {file : String} {number : Nat}

namespace Pass

/-- What the summary of a pass counts. -/
def counts (q : Pass) : RuleCounts :=
  { applied := q.summary.applied, declined := q.summary.declined, crashes := q.summary.crashed }

/-- The pass was committed anew although its untouched bytes were to be kept. -/
def fellBack (q : Pass) (requested : RenderMode) : Bool :=
  q.committed && q.renderMode = some .full && requested = .targeted

end Pass

theorem RenderDecision.full_iff (requested : RenderMode) (sets : List EditSet) :
    (RenderDecision.of requested sets).mode = .full ∧ requested = .targeted ↔
      (RenderDecision.of requested sets).fallbackRuleIds ≠ [] := by
  unfold RenderDecision.of
  cases requested with
  | full => simp
  | targeted =>
    dsimp only
    split
    · simp
    · next ids hids =>
      refine iff_of_true ⟨rfl, rfl⟩ fun hnil => hids ?_
      simpa using congrArg List.length hnil

/-- The rules that make a batch be laid out anew are those of its sets that do not keep untouched
bytes, each once and in the order of their ids. -/
theorem RenderDecision.fallbackRuleIds_spec (sets : List EditSet) :
    (RenderDecision.of .targeted sets).fallbackRuleIds.Nodup ∧
    (RenderDecision.of .targeted sets).fallbackRuleIds.Pairwise (fun a b => unitsLe a b = true) ∧
    ∀ id, id ∈ (RenderDecision.of .targeted sets).fallbackRuleIds ↔
      ∃ set ∈ sets, set.targeted = false ∧ set.ruleId = id := by
  have heq : (RenderDecision.of .targeted sets).fallbackRuleIds =
      (firstOccurrences ((sets.filter fun s => !s.targeted).map (·.ruleId))).mergeSort unitsLe := by
    unfold RenderDecision.of
    dsimp only
    split
    · next hids => rw [hids, List.mergeSort_nil]
    · rfl
  have htotal : ∀ a b, (unitsLe a b || unitsLe b a) = true := fun a b =>
    (Bool.or_eq_true ..).mpr (unitsLe_total a b)
  rw [heq]
  refine ⟨List.nodup_mergeSort.mpr (Engine.nodup_firstOccurrences _),
    @List.pairwise_mergeSort _ unitsLe (fun _ _ _ => unitsLe_trans) htotal _, fun id => ?_⟩
  rw [List.mem_mergeSort, Engine.mem_firstOccurrences]
  simp [and_assoc]

theorem sum_counts_handled (hs : List Handling) (number : Nat) :
    RuleCounts.sum ((hs.filterMap (Handling.entry? number)).map Statistics.Entry.counts) =
      { declined := (hs.filterMap Handling.declined?).length
        crashes := (hs.filterMap (Handling.crash? number)).length } := by
  induction hs with
  | nil => rfl
  | cons h rest ih =>
    obtain ⟨v, fate⟩ := h
    cases fate with
    | skipped => exact ih
    | produced set => exact ih
    | declined =>
      refine (RuleCounts.sum_cons ..).trans ?_
      rw [ih]
      ext <;> simp [RuleCounts.add, Statistics.Entry.counts, List.filterMap_cons,
        Handling.declined?, Handling.crash?, Nat.add_comm]
    | crashed message =>
      refine (RuleCounts.sum_cons ..).trans ?_
      rw [ih]
      ext <;> simp [RuleCounts.add, Statistics.Entry.counts, List.filterMap_cons,
        Handling.declined?, Handling.crash?, Nat.add_comm]

theorem sum_counts_applied (sets : List EditSet) :
    RuleCounts.sum ((sets.map fun set => Statistics.Entry.applied set.violation).map
      Statistics.Entry.counts) = { applied := sets.length } := by
  induction sets with
  | nil => rfl
  | cons set rest ih =>
    refine (RuleCounts.sum_cons ..).trans ?_
    rw [ih]
    ext <;> simp [RuleCounts.add, Statistics.Entry.counts, Nat.add_comm]

namespace PassReport

variable (r : PassReport σ)

/-- The lines of a pass are worth what its summary counts. -/
theorem counts_entries (requested : RenderMode) (file : String) (number : Nat)
    (vs : List Violation) :
    RuleCounts.sum ((r.entries requested file number).map Statistics.Entry.counts) =
      (r.pass requested file number vs).counts := by
  rw [entries, List.map_append, RuleCounts.sum_append, sum_counts_handled, ending, pass]
  by_cases hsome : r.selection.taken = []
  · rw [if_pos hsome, if_pos hsome]
    rfl
  rw [if_neg hsome, if_neg hsome]
  cases r.batch with
  | error f => rfl
  | ok x =>
    have hfallback : ∀ (b : Bool) (f : RenderFallback), RuleCounts.sum
        ((if b then [Statistics.Entry.fallback f] else []).map Statistics.Entry.counts) = {} := by
      intro b f
      cases b <;> rfl
    dsimp only
    rw [List.map_append, RuleCounts.sum_append, hfallback, RuleCounts.zero_add, sum_counts_applied]
    ext <;> simp [RuleCounts.add, Pass.counts, Pass.summary, Pass.chosen, settled, Pass.filed,
      Except.toOption]

theorem crashes_entries (requested : RenderMode) (file : String) (number : Nat)
    (vs : List Violation) : (r.entries requested file number).filterMap Statistics.Entry.crash? =
      (r.pass requested file number vs).crashes := by
  have hhandled : (r.handled.filterMap (Handling.entry? number)).filterMap
      Statistics.Entry.crash? = r.handled.filterMap (Handling.crash? number) := by
    rw [List.filterMap_filterMap]
    refine List.filterMap_congr fun h _ => ?_
    unfold Handling.entry? Handling.crash?
    cases h.fate <;> rfl
  have hending : (r.ending requested file number).filterMap Statistics.Entry.crash? = [] := by
    rw [List.filterMap_eq_nil_iff]
    intro entry hentry
    rcases ending_cases hentry with ⟨f, rfl⟩ | ⟨f, rfl⟩ | ⟨v, rfl⟩
    · rfl
    · rfl
    · rfl
  rw [entries, List.filterMap_append, hhandled, hending, List.append_nil, pass]
  split
  · rfl
  · rfl

theorem fallbacks_entries (requested : RenderMode) (file : String) (number : Nat)
    (vs : List Violation) :
    (r.entries requested file number).filterMap Statistics.Entry.fallback? =
      if (r.pass requested file number vs).fellBack requested then
        [⟨file, number, (RenderDecision.of requested r.selection.taken).fallbackRuleIds⟩]
      else [] := by
  have hhandled : (r.handled.filterMap (Handling.entry? number)).filterMap
      Statistics.Entry.fallback? = [] := by
    rw [List.filterMap_filterMap, List.filterMap_eq_nil_iff]
    intro h _
    unfold Handling.entry?
    cases h.fate <;> rfl
  have happlied : (r.selection.taken.map fun set => Statistics.Entry.applied set.violation).filterMap
      Statistics.Entry.fallback? = [] := by
    rw [List.filterMap_map, List.filterMap_eq_nil_iff]
    exact fun _ _ => rfl
  rw [entries, List.filterMap_append, hhandled, List.nil_append, ending, pass]
  by_cases hsome : r.selection.taken = []
  · rw [if_pos hsome, if_pos hsome]
    rfl
  rw [if_neg hsome, if_neg hsome]
  cases r.batch with
  | error f => rfl
  | ok x =>
    have hfull := RenderDecision.full_iff requested r.selection.taken
    dsimp only
    rw [List.filterMap_append, happlied, List.append_nil]
    by_cases hnone : (RenderDecision.of requested r.selection.taken).fallbackRuleIds = []
    · rw [if_neg (by simp [hnone]), if_neg]
      · rfl
      · intro h
        simp only [Pass.fellBack, Bool.and_eq_true, decide_eq_true_eq] at h
        exact hfull.mp ⟨Option.some.inj h.1.2, h.2⟩ hnone
    · obtain ⟨hmode, rfl⟩ := hfull.mpr hnone
      rw [if_pos (by simpa using hnone), if_pos]
      · rfl
      · simp [Pass.fellBack, Pass.chosen, hmode, Except.toOption]

theorem number_of_mem_crashes {r : PassReport σ} {c : CrashRecord}
    (hc : c ∈ (r.pass requested file number vs).crashes) : c.pass = number := by
  have hcrashes : (r.pass requested file number vs).crashes =
      r.handled.filterMap (Handling.crash? number) := by
    unfold pass
    split <;> rfl
  rw [hcrashes] at hc
  obtain ⟨h, -, hh⟩ := List.mem_filterMap.mp hc
  unfold Handling.crash? at hh
  split at hh
  · cases hh
    rfl
  · cases hh

end PassReport

theorem Reports.targeted_of_selected {shop : Workshop σ} {r : PassReport σ}
    (h : Reports shop d budget requested vs statistics r) {set : EditSet}
    (hset : set ∈ r.selection.taken) : ∃ processor,
      shop.processors.get? set.ruleId = some processor ∧ set.targeted = processor.targeted := by
  obtain ⟨n, rounds, final, hrounds, hhandled, -⟩ := h.rounds
  have hproduced := (Tree.perm_takeClear h.selection).subset (List.mem_append_left _ hset)
  obtain ⟨g, hg, hgset⟩ := List.mem_filterMap.mp hproduced
  rw [← hhandled] at hg
  obtain ⟨hviolation, ⟨processor, hprocessor, htargeted, -⟩, -⟩ :=
    reply_produced (hrounds.faithful.reply_of_set? hg hgset)
  rw [EditSet.ruleId, hviolation]
  exact ⟨processor, hprocessor, htargeted⟩

namespace Engine

/-- The note of a fallback lists, each once and in the order of their ids, the rules of the chosen edit
sets whose processor does not keep untouched bytes. -/
structure Notes (e : Engine σ) (q : Pass) (f : RenderFallback) : Prop where
  file : f.file = q.file
  pass : f.pass = q.number
  nodup : f.ruleIds.Nodup
  sorted : f.ruleIds.Pairwise fun a b => unitsLe a b = true
  mem_iff : ∀ id, id ∈ f.ruleIds ↔ ∃ set ∈ q.selected, set.ruleId = id ∧
    ∃ processor, e.processors.get? id = some processor ∧ processor.targeted = false

variable {e : Engine σ} {rules ids : List String} {options : RepairOptions} {p p' : Progress σ}
  {stop : Option StopReason} {s : Statistics} {ps : List Pass} {q : Pass} {j j' j₀ : Journal}

theorem notes_of_fellBack {r : PassReport σ}
    (hr : Reports ⟨e.language, e.processors⟩ d budget requested vs statistics r)
    (h : (r.pass requested file number vs).fellBack requested = true) :
    e.Notes (r.pass requested file number vs)
      ⟨file, number, (RenderDecision.of requested r.selection.taken).fallbackRuleIds⟩ := by
  have hrequested : requested = .targeted := by
    unfold Pass.fellBack at h
    simp only [Bool.and_eq_true, decide_eq_true_eq] at h
    exact h.2
  subst hrequested
  obtain ⟨hnodup, hsorted, hmem⟩ := RenderDecision.fallbackRuleIds_spec r.selection.taken
  refine ⟨(r.pass_file ..).symm, (r.pass_number ..).symm, hnodup, hsorted, fun id => ?_⟩
  rw [hmem, r.pass_selected]
  refine exists_congr fun set => and_congr_right fun hset => ?_
  obtain ⟨processor, hprocessor, htargeted⟩ := hr.targeted_of_selected hset
  rw [htargeted]
  constructor
  · rintro ⟨hno, rfl⟩
    exact ⟨rfl, processor, hprocessor, hno⟩
  · rintro ⟨rfl, processor', hprocessor', hno⟩
    obtain rfl := Option.some.inj (hprocessor.symm.trans hprocessor')
    exact ⟨hno, rfl⟩

/-- The statistics of a run that has made these passes. -/
structure Books (e : Engine σ) (requested : RenderMode) (s : Statistics) (ps : List Pass) :
    Prop where
  distinct : s.Distinct
  located : s.Located
  totals : ∃ n, s.totals = RuleCounts.add { found := n } (.sum (ps.map Pass.counts))
  crashes : s.crashes = ps.flatMap (·.crashes)
  fallbacks : List.Forall₂ e.Notes (ps.filter (·.fellBack requested)) s.fallbacks

namespace Books

theorem track (e : Engine σ) (requested : RenderMode) (rules : List String) :
    e.Books requested (.track {} rules) [] := by
  obtain ⟨rs, hrules⟩ := Statistics.exists_rules_track {} rules
  refine ⟨.track (s := {}) List.nodup_nil rules,
    .track (s := {}) (fun _ hr => absurd hr List.not_mem_nil) rules,
    ⟨0, Statistics.totals_track ..⟩, ?_, ?_⟩
  · rw [hrules]
    rfl
  · rw [hrules]
    exact .nil

theorem found (h : e.Books requested s ps) (vs : List Violation) :
    e.Books requested (s.enterAll (vs.map .found)) ps := by
  have hworth : RuleCounts.sum ((vs.map Statistics.Entry.found).map Statistics.Entry.counts) =
      { found := vs.length } := by
    induction vs with
    | nil => rfl
    | cons v rest ih =>
      refine (RuleCounts.sum_cons ..).trans ?_
      rw [ih]
      ext <;> simp [RuleCounts.add, Statistics.Entry.counts, Nat.add_comm]
  have hnone : ∀ {α : Type} (f : Statistics.Entry → Option α), (∀ v, f (.found v) = none) →
      (vs.map Statistics.Entry.found).filterMap f = [] := by
    intro α f hf
    rw [List.filterMap_map, List.filterMap_eq_nil_iff]
    exact fun v _ => hf v
  obtain ⟨n, htotals⟩ := h.totals
  refine ⟨h.distinct.enterAll _, h.located.enterAll _, ⟨n + vs.length, ?_⟩, ?_, ?_⟩
  · rw [Statistics.totals_enterAll, hworth, htotals]
    ext <;> simp only [RuleCounts.add] <;> lia
  · rw [Statistics.crashes_enterAll, hnone _ fun _ => rfl, List.append_nil, h.crashes]
  · rw [Statistics.fallbacks_enterAll, hnone _ fun _ => rfl, List.append_nil]
    exact h.fallbacks

theorem pass {r : PassReport σ} (h : e.Books requested s ps)
    (hr : Reports ⟨e.language, e.processors⟩ d budget requested vs statistics r) (file : String)
    (number : Nat) : e.Books requested (s.enterAll (r.entries requested file number))
      (ps ++ [r.pass requested file number vs]) := by
  obtain ⟨n, htotals⟩ := h.totals
  refine ⟨h.distinct.enterAll _, h.located.enterAll _, ⟨n, ?_⟩, ?_, ?_⟩
  · rw [Statistics.totals_enterAll, r.counts_entries requested file number vs, htotals,
      List.map_append, RuleCounts.sum_append, RuleCounts.add_assoc, List.map_singleton,
      RuleCounts.sum_cons _ []]
    rfl
  · rw [Statistics.crashes_enterAll, r.crashes_entries requested file number vs, h.crashes,
      List.flatMap_append, List.flatMap_singleton]
  · rw [Statistics.fallbacks_enterAll, r.fallbacks_entries requested file number vs,
      List.filter_append]
    refine List.rel_append h.fallbacks ?_
    rw [List.filter_singleton]
    by_cases hback : (r.pass requested file number vs).fellBack requested = true
    · rw [hback, if_pos rfl]
      exact .cons (notes_of_fellBack hr hback) .nil
    · rw [if_neg hback, Bool.eq_false_iff.mpr hback]
      exact .nil

end Books

/-- A run in this state has made these passes and kept the books of them. -/
structure Kept (e : Engine σ) (rules : List String) (options : RepairOptions) (d : Document σ)
    (j₀ : Journal) (p : Progress σ) (ps : List Pass) : Prop where
  passes : p.passes = ps.map Pass.summary
  made : ∀ q ∈ ps, ∃ d' st st' outcome, e.Makes rules options d j₀ d' st st' outcome ∧ q = st'.pass
  numbered : ps.map (·.number) = List.range' 1 ps.length
  stamped : ∀ q ∈ ps, ∀ c ∈ q.crashes, c.pass = q.number
  books : e.Books options.mode p.statistics ps

theorem Kept.analyzed (h : e.Kept rules options d j₀ p ps) (number : Nat)
    (remaining : List Violation) : e.Kept rules options d j₀ (p.analyzed number remaining) ps := by
  refine ⟨h.passes, h.made, h.numbered, h.stamped, ?_⟩
  rw [analyzed_statistics]
  split
  · exact h.books.found remaining
  · exact h.books

theorem Kept.pass {remaining : List Violation} {st : PassState} {outcome : PassOutcome σ}
    {k k₁ k₂ : Journal} (h : e.Kept rules options d j₀ p ps)
    (hreached : e.Reached rules options d j₀ number p j)
    (hchecks : (e.analyzer.runChecks p.document rules).Yields j remaining k)
    (hrun : (runPass ⟨e.language, e.processors⟩ p.document options.budget options.mode
      ((p.analyzed number remaining).opening options.budget number)).Yields k₁ (st, outcome) k₂)
    (d' : Document σ) : ∃ ps', e.Kept rules options d j₀
      { (p.analyzed number remaining).record st with document := d' } ps' := by
  obtain ⟨r, fresh, hreports, rfl, -⟩ := exists_report hrun
  have hmakes : e.Makes rules options d j₀ p.document _ _ outcome :=
    ⟨⟨number, p, remaining, j, k, hreached, hchecks, rfl, rfl⟩, k₁, k₂, hrun⟩
  have hlength : number = ps.length + 1 := by
    have hpos := hreached.onCourse.pos
    have hpasses := hreached.onCourse.length_passes
    rw [h.passes, List.length_map] at hpasses
    lia
  refine ⟨ps ++ [_], ?_, ?_, ?_, ?_,
    (h.analyzed number remaining).books.pass hreports p.document.tree.filePath number⟩
  · rw [List.map_append, ← h.passes]
    rfl
  · intro q hq
    rcases List.mem_append.mp hq with hq | hq
    · exact h.made q hq
    · exact ⟨_, _, _, _, hmakes, List.mem_singleton.mp hq⟩
  · rw [List.map_append, h.numbered, List.map_singleton, PassReport.pass_number, hlength,
      List.length_append, List.length_singleton, List.range'_concat, Nat.one_mul,
      Nat.add_comm 1 ps.length]
  · intro q hq c hc
    rcases List.mem_append.mp hq with hq | hq
    · exact h.stamped q hq c hc
    · rw [List.mem_singleton.mp hq] at hc ⊢
      rw [PassReport.pass_number]
      exact PassReport.number_of_mem_crashes hc

/-- A turn keeps the books, be it the last one or not. -/
theorem Kept.turn (h : e.Kept rules options d j₀ p ps)
    (hreached : e.Reached rules options d j₀ number p j)
    (hturn : (e.turn rules options number p).Yields j (p', stop) j') :
    ∃ ps', e.Kept rules options d j₀ p' ps' := by
  obtain ⟨remaining, k, hchecks, hend⟩ := turn_cases hturn
  have hidle := h.analyzed number remaining
  cases hend with
  | clean => exact ⟨ps, hidle⟩
  | aborted => exact ⟨ps, hidle⟩
  | exhausted => exact ⟨ps, hidle⟩
  | capped => exact ⟨ps, hidle⟩
  | stopped _ hrun => exact h.pass hreached hchecks hrun p.document
  | committed _ hrun => exact h.pass hreached hchecks hrun _

theorem Reached.kept (h : e.Reached rules options d j₀ number p j) :
    (∃ ps, e.Kept rules options d j₀ p ps) ∧ p.statistics.failures = [] := by
  induction h with
  | start =>
    refine ⟨⟨[], rfl, fun _ hq => absurd hq List.not_mem_nil, rfl,
      fun _ hq => absurd hq List.not_mem_nil, .track e options.mode rules⟩, ?_⟩
    obtain ⟨rs, hrules⟩ := Statistics.exists_rules_track {} rules
    exact congrArg Statistics.failures hrules
  | next hreached hturn _ ih =>
    obtain ⟨⟨ps, hps⟩, hnone⟩ := ih
    exact ⟨hps.turn hreached hturn, ((turn_failure hturn).2 nofun).trans hnone⟩

theorem distinct_of_repairSource {text : Text} {file : String} {ids : List String}
    {r : RepairResult σ} (h : (e.repairSource text file ids options).Yields j r j') :
    r.statistics.Distinct := by
  obtain ⟨rules, d, k, k', -, -, hrepair⟩ := repair_of_repairSource h
  obtain ⟨_, n, q, p, k₁, k₂, -, hreached, hturn, -, -, -, hstatistics⟩ := repair_cases hrepair
  obtain ⟨⟨ps, hps⟩, -⟩ := hreached.kept
  obtain ⟨ps', hps'⟩ := hps.turn hreached hturn
  rw [hstatistics]
  exact hps'.books.distinct.setRemaining p.remaining

theorem countP_crashes (hnodup : (ps.map (·.number)).Nodup)
    (hstamped : ∀ q ∈ ps, ∀ c ∈ q.crashes, c.pass = q.number) (hq : q ∈ ps) :
    (ps.flatMap (·.crashes)).countP (fun c => c.pass = q.number) = q.crashes.length := by
  induction ps with
  | nil => exact absurd hq List.not_mem_nil
  | cons x rest ih =>
    obtain ⟨hx, hrest⟩ := List.forall_mem_cons.mp hstamped
    obtain ⟨hnew, hnodup⟩ := List.nodup_cons.mp hnodup
    rw [List.flatMap_cons, List.countP_append]
    rcases List.mem_cons.mp hq with rfl | hmem
    · have hall : q.crashes.countP (fun c => c.pass = q.number) = q.crashes.length :=
        List.countP_eq_length.mpr fun c hc => decide_eq_true (hx c hc)
      have hnone : (rest.flatMap (·.crashes)).countP (fun c => c.pass = q.number) = 0 := by
        rw [List.countP_eq_zero]
        intro c hc
        obtain ⟨y, hy, hcy⟩ := List.mem_flatMap.mp hc
        rw [hrest y hy c hcy]
        simpa using fun heq => hnew (List.mem_map.mpr ⟨y, hy, heq⟩)
      rw [hall, hnone, Nat.add_zero]
    · have hnone : x.crashes.countP (fun c => c.pass = q.number) = 0 := by
        rw [List.countP_eq_zero]
        intro c hc
        rw [hx c hc]
        simpa using fun heq => hnew (List.mem_map.mpr ⟨q, hmem, heq.symm⟩)
      rw [hnone, Nat.zero_add, ih hnodup hrest hmem]

/-- The two accounts of a run agree: its result's statistics are those of these passes. -/
structure Agrees (e : Engine σ) (rules : List String) (options : RepairOptions) (d : Document σ)
    (j₀ : Journal) (r : RepairResult σ) (ps : List Pass) : Prop where
  passes : r.passes = ps.map Pass.summary
  made : ∀ q ∈ ps, ∃ d' st st' outcome, e.Makes rules options d j₀ d' st st' outcome ∧ q = st'.pass
  numbered : r.passes.map (·.number) = List.range' 1 r.passes.length
  applied : r.statistics.totals.applied = (r.passes.map (·.applied)).sum
  declined : r.statistics.totals.declined = (r.passes.map (·.declined)).sum
  crashed : r.statistics.totals.crashes = (r.passes.map (·.crashed)).sum
  sums : r.statistics.totals.Sums (r.statistics.sortedRules.map (·.counts))
  located : ∀ x ∈ r.statistics.sortedRules, x.appliedPlaces.length = x.counts.applied
  length_crashes : r.statistics.crashes.length = r.statistics.totals.crashes
  crashes_of : ∀ x ∈ r.passes,
    r.statistics.crashes.countP (fun c => c.pass = x.number) = x.crashed
  length_failures : r.statistics.failures.length = if r.stopReason = .passFailure then 1 else 0
  /-- There is a note for every committed pass that was to keep untouched bytes and did not. -/
  fallbacks : List.Forall₂ e.Notes (ps.filter (·.fellBack options.mode)) r.statistics.fallbacks

theorem Kept.agrees {r : RepairResult σ} (h : e.Kept rules options d j₀ p ps)
    (hpasses : r.passes = p.passes)
    (hstatistics : r.statistics = p.statistics.setRemaining p.remaining)
    (hfailures : p.statistics.failures.length = if r.stopReason = .passFailure then 1 else 0) :
    e.Agrees rules options d j₀ r ps := by
  obtain ⟨rs, hrecords⟩ := p.statistics.exists_rules_setRemaining p.remaining
  obtain ⟨n, htotals⟩ := h.books.totals
  have hsums := RuleCounts.sum_sums (ps.map Pass.counts)
  have hdistinct := h.books.distinct.setRemaining p.remaining
  have hlisted := hdistinct.perm_sortedRules
  have hsummaries : r.passes = ps.map Pass.summary := hpasses.trans h.passes
  have hcrashes : r.statistics.crashes = ps.flatMap (·.crashes) := by
    rw [hstatistics, hrecords]
    exact h.books.crashes
  have htotal : ∀ (f : RuleCounts → Nat) (g : PassSummary → Nat),
      (∀ c m, f { c with remaining := m } = f c) → (∀ m c, f (.add { found := m } c) = f c) →
      (∀ q : Pass, f q.counts = g q.summary) →
      f (.sum (ps.map Pass.counts)) = ((ps.map Pass.counts).map f).sum →
      f r.statistics.totals = (r.passes.map g).sum := by
    intro f g hremaining hfound hcounts hsum
    rw [hstatistics, Statistics.totals_setRemaining, hremaining, htotals, hfound, hsum, hsummaries,
      List.map_map, List.map_map]
    exact congrArg _ (List.map_congr_left fun q _ => hcounts q)
  have hcrashed : r.statistics.totals.crashes = (r.passes.map (·.crashed)).sum :=
    htotal _ _ (fun _ _ => rfl) (fun _ c => Nat.zero_add c.crashes) (fun _ => rfl) hsums.crashes
  have hnumbers : r.passes.map (·.number) = ps.map (·.number) := by
    rw [hsummaries, List.map_map]
    rfl
  constructor
  · exact hsummaries
  · exact h.made
  · rw [hnumbers, h.numbered, hsummaries, List.length_map]
  · exact htotal _ _ (fun _ _ => rfl) (fun _ c => Nat.zero_add c.applied) (fun _ => rfl)
      hsums.applied
  · exact htotal _ _ (fun _ _ => rfl) (fun _ c => Nat.zero_add c.declined) (fun _ => rfl)
      hsums.declined
  · exact hcrashed
  · rw [hstatistics]
    exact hdistinct.totals_sums
  · rw [hstatistics]
    exact fun x hx => h.books.located.setRemaining p.remaining x (hlisted.subset hx)
  · rw [hcrashed, hcrashes, hsummaries, List.length_flatMap, List.map_map]
    rfl
  · intro x hx
    rw [hsummaries] at hx
    obtain ⟨q, hq, rfl⟩ := List.mem_map.mp hx
    have hnodup : (ps.map (·.number)).Nodup := by
      rw [h.numbered]
      exact List.nodup_range'
    rw [hcrashes]
    exact countP_crashes hnodup h.stamped hq
  · rw [hstatistics, hrecords]
    exact hfailures
  · rw [hstatistics, hrecords]
    exact h.books.fallbacks

/-- The statistics of every run agree with its passes. -/
theorem repair_agrees (e : Engine σ) (ids : List String) (options : RepairOptions) :
    (∀ d j r j', (e.repair d ids options).Yields j r j' →
      ∃ rules ps, e.validateRules ids = .ok rules ∧ e.Agrees rules options d j r ps) ∧
    ∀ text file j r j', (e.repairSource text file ids options).Yields j r j' →
      ∃ rules d k ps, e.validateRules ids = .ok rules ∧ (e.language.read text file).Yields j d k ∧
        e.Agrees rules options d k r ps := by
  have hrepair : ∀ ids d j r j', (e.repair d ids options).Yields j r j' →
      ∃ rules ps, e.validateRules ids = .ok rules ∧ e.Agrees rules options d j r ps := by
    intro ids d j r j' h
    obtain ⟨rules, n, q, p, k, k', hrules, hreached, hturn, -, hpasses, -, hstatistics⟩ :=
      repair_cases h
    obtain ⟨⟨ps, hps⟩, hnone⟩ := hreached.kept
    obtain ⟨ps', hps'⟩ := hps.turn hreached hturn
    refine ⟨rules, ps', hrules, hps'.agrees hpasses hstatistics ?_⟩
    obtain ⟨hfailed, hkept⟩ := turn_failure hturn
    by_cases hreason : r.stopReason = .passFailure
    · obtain ⟨-, code, message, hdiscards⟩ := hfailed (congrArg some hreason)
      rw [if_pos hreason, hdiscards.failures, hnone]
      rfl
    · rw [if_neg hreason, hkept fun h => hreason (Option.some.inj h), hnone]
      rfl
  refine ⟨hrepair ids, fun text file j r j' h => ?_⟩
  obtain ⟨rules, d, k, k', hrules, hread, hrun⟩ := repair_of_repairSource h
  obtain ⟨rules', ps, hagain, hagrees⟩ := hrepair rules d k r k' hrun
  rw [validateRules_again hrules] at hagain
  obtain rfl := Except.ok.inj hagain
  exact ⟨rules, d, k, ps, hrules, hread, hagrees⟩

/-- Renames marks of kind A, but not byte by byte, and crashes at those of kind B. -/
def clumsy : Engine Marks.MarksFile :=
  { renamer with
    processors := .ofList [("a", { relabel "a" "<B>" with targeted := false }),
      ("b", ⟨"b", "b", "", true, fun _ => .ok (.crashed "c")⟩)] }

/-- Its first pass is noted as a fallback, and its second one as a crash. -/
theorem repair_agrees_clumsy : ∃ r j' rules d k ps,
    (clumsy.repairSource (.ofString "<A>x") "f" ["a", "b"] {}).Yields {} r j' ∧
    r.passes.map (fun x => (x.applied, x.crashed)) = [(1, 0), (0, 1)] ∧
    r.statistics.fallbacks = [⟨"f", 1, ["a"]⟩] ∧
    clumsy.validateRules ["a", "b"] = .ok rules ∧
    (clumsy.language.read (.ofString "<A>x") "f").Yields {} d k ∧
    clumsy.Agrees rules {} d k r ps := by
  obtain ⟨r, j', hrun, hend⟩ := Run.exists_yields (j := {})
    (x := clumsy.repairSource (.ofString "<A>x") "f" ["a", "b"] {})
    (f := fun r => (r.passes.map fun x => (x.applied, x.crashed), r.statistics.fallbacks))
    (b := ([(1, 0), (0, 1)], [⟨"f", 1, ["a"]⟩])) (by decide +kernel)
  obtain ⟨rules, d, k, ps, hrules, hread, hagrees⟩ :=
    (repair_agrees clumsy ["a", "b"] {}).2 _ _ _ r j' hrun
  exact ⟨r, j', rules, d, k, ps, hrun, (Prod.mk.inj hend).1, (Prod.mk.inj hend).2, hrules, hread,
    hagrees⟩

end Engine

end LintRepair
