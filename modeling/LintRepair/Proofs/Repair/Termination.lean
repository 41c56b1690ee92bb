import LintRepair.Proofs.Repair.Reports
import LintRepair.Proofs.Repair.Requests
import Mathlib.Algebra.Order.BigOperators.Group.List
import Mathlib.Algebra.Order.Ring.Nat

/-!
# Runs end

The loop of a run has no bound of its own. Each turn that does not end it commits a pass, which uses
up one of the passes allowed and at least one repair of a requested rule; so a cap on either of the
two ends it. `Engine.repair_ends` adds what the passes of a result look like.
-/
namespace LintRepair

variable {σ : Type} {shop : Workshop σ} {d d' : Document σ} {budget : Budget} {vs : List Violation}
  {st st' final : PassState} {rounds : List (List Handling)} {requested : RenderMode}
  {outcome : PassOutcome σ} {selection : Split EditSet} {j j' j₀ : Journal}

namespace Rounds

theorem number_eq (h : Rounds shop d budget vs st rounds final) :
    final.pass.number = st.pass.number := by
  rw [h.pass_eq]
  rfl

theorem committed_eq (h : Rounds shop d budget vs st rounds final) :
    final.pass.committed = st.pass.committed := by
  rw [h.pass_eq]
  rfl

theorem reply_of_mem_produced (h : Rounds shop d budget vs st rounds final)
    (hproduced : st.pass.produced = []) (hnil : vs = [] → st.pass.deferred = []) {set : EditSet}
    (hset : set ∈ final.pass.produced) :
    set.violation ∈ vs ∧ reply shop d set.violation = .produced set := by
  rw [h.produced_eq, hproduced, List.nil_append] at hset
  obtain ⟨g, hg, hgset⟩ := List.mem_filterMap.mp hset
  rw [(h.faithful.set_spec hg hgset).1]
  exact ⟨(h.perm hnil).subset (List.mem_append_left _ (List.mem_map_of_mem hg)),
    h.faithful.reply_of_set? hg hgset⟩

end Rounds

/-- The summary of a pass tells whether it was committed, and one that was has applied something. -/
structure Summed (number : Nat) (s : PassSummary) (outcome : PassOutcome σ) : Prop where
  number_eq : s.number = number
  committed : ∀ next, outcome = .committed next → s.committed = true ∧ 1 ≤ s.applied
  stopped : ∀ reason, outcome = .stopped reason →
    s.committed = false ∧ (reason = .fixedPoint ∨ reason = .passFailure)

theorem summed_of_runPass {file : String} {number : Nat} {statistics : Statistics}
    (h : (runPass shop d budget requested (.opening file number vs statistics)).Yields j
      (st', outcome) j') : Summed number st'.pass.summary outcome := by
  obtain ⟨rounds, final, selection, hrounds, -, hend⟩ := runPass_cases h
  have hnumber : final.pass.number = number := hrounds.number_eq
  have hcommitted : final.pass.committed = false := hrounds.committed_eq
  cases hend with
  | fixedPoint =>
    refine ⟨hnumber, fun next he => (nomatch he), fun reason he => ?_⟩
    cases he
    exact ⟨hcommitted, .inl rfl⟩
  | failed =>
    refine ⟨hnumber, fun next he => (nomatch he), fun reason he => ?_⟩
    cases he
    exact ⟨hcommitted, .inr rfl⟩
  | committed hsome =>
    refine ⟨hnumber, fun next _ => ⟨rfl, ?_⟩, fun reason he => (nomatch he)⟩
    exact List.length_pos_iff.mpr hsome

namespace Engine

variable {e : Engine σ} {rules : List String} {options : RepairOptions} {p p' : Progress σ}
  {number : Nat} {stop : Option StopReason} {remaining : List Violation}

/-- What holds when a turn of the loop begins: the passes made so far are numbered, committed and
within their cap, and the file is that of the last one. -/
structure OnCourse (e : Engine σ) (rules : List String) (options : RepairOptions)
    (d : Document σ) (j₀ : Journal) (number : Nat) (p : Progress σ) : Prop where
  pos : 1 ≤ number
  numbered : p.passes.map (·.number) = List.range' 1 (number - 1)
  committed : ∀ s ∈ p.passes, s.committed = true ∧ 1 ≤ s.applied
  allowed : options.budget.passes.Allows (number - 1)
  document : (p.passes = [] ∧ p.document = d) ∨
    ∃ d' st st' k k', e.Begins rules options d j₀ d' st ∧
      (runPass ⟨e.language, e.processors⟩ d' options.budget options.mode st).Yields k
        (st', .committed p.document) k' ∧ p.passes.getLast? = some st'.pass.summary

theorem OnCourse.length_passes (h : OnCourse e rules options d j₀ number p) :
    p.passes.length = number - 1 := by
  have hlength := congrArg List.length h.numbered
  rwa [List.length_map, List.length_range'] at hlength

theorem Reached.onCourse (h : e.Reached rules options d j₀ number p j) :
    OnCourse e rules options d j₀ number p := by
  induction h with
  | start =>
    exact ⟨Nat.le_refl 1, rfl, fun s hs => absurd hs List.not_mem_nil, Cap.allows_zero _,
      .inl ⟨rfl, rfl⟩⟩
  | @next number p p' j k k' hreached hturn _ ih =>
    obtain ⟨remaining, k₁, hchecks, hend⟩ := turn_cases hturn
    cases hend with
    | @committed hopen st next k₂ k₃ hpass =>
      have hsum := summed_of_runPass hpass
      have hpos := ih.pos
      refine ⟨Nat.le_add_left 1 number, ?_, ?_, ?_, .inr ?_⟩
      · change (p.passes ++ [st.pass.summary]).map (·.number) = _
        rw [List.map_append, ih.numbered, List.map_singleton, hsum.number_eq]
        obtain ⟨m, rfl⟩ : ∃ m, number = m + 1 := ⟨number - 1, by lia⟩
        rw [Nat.add_sub_cancel, Nat.add_sub_cancel, List.range'_concat, Nat.one_mul, Nat.add_comm 1]
      · intro s hs
        rcases List.mem_append.mp hs with hs | hs
        · exact ih.committed s hs
        · rw [List.mem_singleton.mp hs]
          exact hsum.committed next rfl
      · rw [Nat.add_sub_cancel]
        have hnext := Cap.allows_succ hopen
        rwa [Nat.sub_add_cancel hpos] at hnext
      · exact ⟨_, _, st, k₂, k₃, ⟨number, p, remaining, j, k₁, hreached, hchecks, rfl, rfl⟩, hpass,
          List.getLast?_concat⟩

/-- What the checks report and a processor repairs is of one of these rules. -/
def RepairsOnly (e : Engine σ) (rules ids : List String) : Prop :=
  ∀ d j vs j', (e.analyzer.runChecks d rules).Yields j vs j' → ∀ v ∈ vs, ∀ set,
    reply ⟨e.language, e.processors⟩ d v = .produced set → v.ruleId ∈ ids

theorem repairsOnly_requested (honly : e.analyzer.ReportsRequested) (rules : List String) :
    e.RepairsOnly rules rules :=
  fun d _ _ _ hchecks v hv _ _ => honly d rules _ _ _ hchecks v hv

theorem repairsOnly_registered (e : Engine σ) (rules : List String) :
    e.RepairsOnly rules (e.processors.entries.map (·.1)) := by
  intro d j vs j' _ v _ set hset
  obtain ⟨-, ⟨processor, hprocessor, -⟩, -⟩ := reply_produced hset
  exact List.mem_map_of_mem (Register.mem_entries_of_get? hprocessor)

/-- A committed pass has applied a repair of a rule that can be repaired. -/
theorem exists_applied_of_committed {ids : List String} (hids : ∀ v ∈ p.remaining, ∀ set,
      reply ⟨e.language, e.processors⟩ p.document v = .produced set → v.ruleId ∈ ids)
    (h : Turned e options number p p' none) :
    (∀ id ∈ ids, p.statistics.applied id ≤ p'.statistics.applied id) ∧
      ∃ id ∈ ids, p.statistics.applied id < p'.statistics.applied id := by
  cases h with
  | @committed hopen st next k k' hpass =>
    obtain ⟨rounds, final, selection, hrounds, hselect, hend⟩ := runPass_cases hpass
    obtain ⟨hsome, hcounts⟩ := hend.committed_spec
    have happlied : ∀ id, st.statistics.applied id =
        p.statistics.applied id + selection.taken.countP fun set => set.ruleId = id := by
      intro id
      rw [hcounts, hrounds.applied_eq]
      rfl
    obtain ⟨set, hset⟩ := List.exists_mem_of_ne_nil _ hsome
    have hproduced : set ∈ final.pass.produced :=
      (Tree.perm_takeClear hselect).subset (List.mem_append_left _ hset)
    obtain ⟨hactive, hreply⟩ := hrounds.reply_of_mem_produced rfl (fun _ => rfl) hproduced
    have hrule : set.ruleId ∈ ids := hids _ (List.mem_filter.mp hactive).1 set hreply
    have hcount : 0 < selection.taken.countP fun s => s.ruleId = set.ruleId :=
      List.countP_pos_iff.mpr ⟨set, hset, by simp⟩
    refine ⟨fun id _ => ?_, set.ruleId, hrule, ?_⟩
    · change p.statistics.applied id ≤ st.statistics.applied id
      rw [happlied]
      exact Nat.le_add_right _ _
    · change p.statistics.applied set.ruleId < st.statistics.applied set.ruleId
      rw [happlied]
      lia

theorem Reached.number_le_applied {ids : List String} (hids : e.RepairsOnly rules ids)
    (h : e.Reached rules options d j₀ number p j) :
    number - 1 ≤ (ids.map p.statistics.applied).sum := by
  induction h with
  | start => exact Nat.zero_le _
  | @next number p p' j k k' hreached hturn _ ih =>
    obtain ⟨remaining, k₁, hchecks, hend⟩ := turn_cases hturn
    obtain ⟨hle, hlt⟩ := exists_applied_of_committed (hids _ _ _ _ hchecks) hend
    simp only [applied_analyzed] at hle hlt
    have hsum := List.sum_lt_sum p.statistics.applied p'.statistics.applied hle hlt
    have hpos := hreached.onCourse.pos
    lia

theorem Reached.number_le_repairs {ids : List String} (hids : e.RepairsOnly rules ids)
    (h : e.Reached rules options d j₀ number p j) {m : Nat}
    (hcap : options.budget.repairsPerRule = .atMost m) : number - 1 ≤ ids.length * m := by
  refine Nat.le_trans (h.number_le_applied hids) ?_
  have hle := List.sum_le_card_nsmul (ids.map p.statistics.applied) m ?_
  · rw [List.length_map] at hle
    exact hle
  · intro n hn
    obtain ⟨id, -, rfl⟩ := List.mem_map.mp hn
    have hid := h.allows id
    rwa [hcap] at hid

theorem Reached.number_le_turnLimit {ids : List String} (hids : e.RepairsOnly rules ids)
    (hbounded : options.budget.passes ≠ .unbounded ∨ options.budget.repairsPerRule ≠ .unbounded)
    (h : e.Reached rules options d j₀ number p j) (patience : Nat) :
    number ≤ turnLimit options.budget ids.length patience := by
  unfold turnLimit
  split
  · next n hpasses =>
    have hallowed := h.onCourse.allowed
    rw [hpasses] at hallowed
    simp only [Cap.Allows] at hallowed
    lia
  · next m _ hcap =>
    have := h.number_le_repairs hids hcap
    lia
  · next hpasses hcap => exact absurd hbounded (by simp [hpasses, hcap])

/-- Once its turns are bounded, a run does not depend on how many more it might take. -/
theorem Reached.turns_add {limit : Nat}
    (hlimit : ∀ n q k, e.Reached rules options d j₀ n q k → n ≤ limit) {fuel : Nat}
    (hfuel : limit < number + fuel) (h : e.Reached rules options d j₀ number p j) (more : Nat) :
    (e.turns rules options d.number (fuel + more) number p).run.run j =
      (e.turns rules options d.number fuel number p).run.run j := by
  induction fuel generalizing number p j with
  | zero =>
    have := hlimit number p j h
    lia
  | succ fuel ih =>
    rw [Nat.succ_add_eq_add_succ, Nat.add_succ, turns, turns]
    refine Run.run_bind_congr ?_
    rintro ⟨next, stop⟩ k hturn
    rw [Run.yields_tryCatch fun _ _ _ _ => Run.not_yields_bind_throw] at hturn
    cases stop with
    | some reason => rfl
    | none =>
      refine Run.run_bind_congr ?_
      rintro ⟨⟩ k' hrelease
      exact ih (by lia) (h.next hturn hrelease)

theorem gives_tryBatch (language : Language σ) (t : Tree) (sets : List EditSet)
    (mode : RenderMode) : (tryBatch language t sets mode).Gives fun _ => True := by
  intro j
  obtain ⟨j', hj, -⟩ := tryBatch_yields language t sets mode j
  exact ⟨_, j', hj, trivial⟩

theorem exists_selection (shop : Workshop σ) (budget : Budget) (hd : d.tree.WellFormed)
    (hvs : d.tree.Holds vs) (file : String) (number : Nat) (statistics : Statistics) :
    ∃ rounds final selection,
      Rounds shop d budget vs (.opening file number vs statistics) rounds final ∧
      d.tree.selectCompatible final.pass.produced = .ok selection ∧
      ∀ set ∈ final.pass.produced, d.tree.AllLive set.touched := by
  have hclaimed : d.tree.AllLive (PassState.opening file number vs statistics).claimed :=
    fun h hh => absurd hh List.not_mem_nil
  obtain ⟨rounds, final, hrounds⟩ := exists_rounds shop budget hd.descending hvs hclaimed
  have hviolations : ∀ g ∈ rounds.flatten, g.violation ∈ vs := fun g hg =>
    (hrounds.perm fun _ => rfl).subset (List.mem_append_left _ (List.mem_map_of_mem hg))
  have hlive := hrounds.faithful.allLive fun g hg => hvs _ (hviolations g hg)
  have htouched : ∀ set ∈ final.pass.produced, d.tree.AllLive set.touched := by
    intro set hset h hh
    rw [hrounds.produced_eq] at hset
    exact hlive h (List.mem_flatMap.mpr ⟨set, hset, hh⟩)
  have hfree : d.tree.AllLive [] := fun h hh => absurd hh List.not_mem_nil
  obtain ⟨selection, hselect, -⟩ := Tree.takeClear_spec hd.descending hfree htouched
  exact ⟨rounds, final, selection, hrounds, hselect, htouched⟩

theorem gives_runPass (shop : Workshop σ) (budget : Budget) (requested : RenderMode)
    (hd : d.tree.WellFormed) (file : String) (number : Nat) (statistics : Statistics)
    (hvs : d.tree.Holds vs) :
    (runPass shop d budget requested (.opening file number vs statistics)).Gives
      fun _ => True := by
  obtain ⟨rounds, final, selection, hrounds, hselect, -⟩ :=
    exists_selection shop budget hd hvs file number statistics
  unfold runPass
  refine .bind (P := fun st => st = final) (fun j => ?_) ?_
  · obtain ⟨j', hj⟩ := hrounds.yields j
    exact ⟨final, j', hj, rfl⟩
  rintro final rfl
  refine .bind (Run.gives_lift (P := fun s => s = selection) hselect rfl) ?_
  rintro selection rfl
  split
  · exact Run.gives_pure trivial
  refine .bind (gives_tryBatch _ _ _ _) fun result _ => ?_
  split
  · exact .bind (Run.gives_log _) fun _ _ => Run.gives_pure trivial
  split
  · exact .bind (Run.gives_log _) fun _ _ => Run.gives_pure trivial
  · exact Run.gives_pure trivial

theorem gives_interrupted (options : RepairOptions) : (interrupted options).Gives fun _ => True := by
  have hend : ∀ aborted : Bool, (pure (aborted || options.expired) : Run Bool).Gives fun _ => True :=
    fun _ => Run.gives_pure trivial
  unfold interrupted
  split
  · exact .bind (P := fun _ => True) (fun j => ⟨_, _, rfl, trivial⟩) fun aborted _ => hend aborted
  · exact .bind (P := fun _ => True) (Run.gives_pure trivial) fun aborted _ => hend aborted

theorem gives_releaseUnless (initial : Nat) (d : Document σ) :
    (releaseUnless initial d).Gives fun _ => True := by
  unfold releaseUnless
  split
  · exact Run.gives_pure trivial
  · exact fun j => ⟨(), _, rfl, trivial⟩

/-- A turn ends if its checks find violations that its tree has the nodes of. -/
theorem gives_turn (hchecks : (e.analyzer.runChecks p.document rules).Gives p.document.tree.Holds)
    (hp : p.document.tree.WellFormed) (options : RepairOptions) (number : Nat) :
    (e.turn rules options number p).Gives fun _ => True := by
  unfold turn
  refine .bind hchecks fun remaining hvs => ?_
  generalize (if number = 1 then p.statistics.addFound remaining else p.statistics) = statistics
  split
  · exact Run.gives_pure trivial
  refine .bind (gives_interrupted options) fun aborted _ => ?_
  split
  · exact Run.gives_pure trivial
  dsimp only
  split
  · exact Run.gives_pure trivial
  split
  · exact Run.gives_pure trivial
  refine .bind (gives_runPass _ _ _ hp _ _ _ (hvs.mono (List.filter_subset_self _))) ?_
  rintro ⟨st, outcome⟩ -
  refine .bind (Run.gives_log _) fun _ _ => ?_
  split
  · exact Run.gives_pure trivial
  · exact Run.gives_pure trivial

theorem Reached.document_cases (h : e.Reached rules options d j₀ number p j) :
    p.document = d ∨ ∃ text template parsed fresh,
      e.language.parse text d.tree.filePath = .ok (template, parsed) ∧
      p.document = ⟨.ofTemplate d.tree.filePath text template, some parsed, fresh⟩ := by
  induction h with
  | start => exact .inl rfl
  | @next number p p' j k k' _ hturn _ ih =>
    have hpath : p.document.tree.filePath = d.tree.filePath := by
      rcases ih with h | ⟨text, template, parsed, fresh, -, h⟩
      · rw [h]
      · rw [h]
        rfl
    obtain ⟨remaining, k₁, -, hend⟩ := turn_cases hturn
    cases hend with
    | @committed _ st next k₂ k₃ hpass =>
      obtain ⟨rounds, final, selection, -, -, hend⟩ := runPass_cases hpass
      cases hend with
      | committed hsome hbatch =>
        obtain ⟨x, fresh, hx, rfl⟩ := (batch_of_tryBatch hbatch).2 next rfl
        obtain ⟨text, template, parsed, hparse, rfl⟩ := Language.read_of_batch hx
        refine .inr ⟨text, template, parsed, fresh, ?_, ?_⟩
        · rw [← hpath]
          exact hparse
        · rw [← hpath]
          rfl

theorem Reached.wellFormed (h : e.Reached rules options d j₀ number p j)
    (hd : d.tree.WellFormed) : p.document.tree.WellFormed := by
  rcases h.document_cases with h | ⟨text, template, parsed, fresh, -, h⟩
  · rwa [h]
  · rw [h]
    exact Tree.wellFormed_ofTemplate ..

theorem Reached.yields_or_reached
    (hturns : ∀ n q k, e.Reached rules options d j₀ n q k →
      (e.turn rules options n q).Gives fun _ => True)
    (h : e.Reached rules options d j₀ number p j) (fuel : Nat) :
    (∃ x j', (e.turns rules options d.number fuel number p).Yields j x j') ∨
      ∃ q k, e.Reached rules options d j₀ (number + fuel) q k := by
  induction fuel generalizing number p j with
  | zero => exact .inr ⟨p, j, h⟩
  | succ fuel ih =>
    obtain ⟨⟨next, stop⟩, k, hturn, -⟩ := hturns number p j h j
    rw [turns]
    cases stop with
    | some reason =>
      refine .inl ⟨_, k, .bind ((Run.yields_tryCatch ?_).mpr hturn) (.pure _ _)⟩
      exact fun _ _ _ _ => Run.not_yields_bind_throw
    | none =>
      obtain ⟨⟨⟩, k', hrelease, -⟩ := gives_releaseUnless d.number p.document k
      rcases ih (h.next hturn hrelease) with ⟨x, j', hrest⟩ | ⟨q, j', hmore⟩
      · refine .inl ⟨x, j', .bind ((Run.yields_tryCatch ?_).mpr hturn) (hrelease.bind hrest)⟩
        exact fun _ _ _ _ => Run.not_yields_bind_throw
      · rw [Nat.add_right_comm] at hmore
        exact .inr ⟨q, j', hmore⟩

/-- A run gives a result if all of its turns end, unless it goes on for too long. -/
theorem result_or_reached {ids : List String} (hrules : e.validateRules ids = .ok rules)
    (hturns : ∀ n q k, e.Reached rules options d j n q k →
      (e.turn rules options n q).Gives fun _ => True) :
    (∃ r j', (e.repair d ids options).Yields j r j') ∨ ∃ q k, e.Reached rules options d j
      (1 + (turnLimit options.budget e.processors.entries.length options.patience +
        silentLooks options)) q k := by
  refine (Reached.start.yields_or_reached hturns _).imp_left ?_
  rintro ⟨x, j', hrun⟩
  exact ⟨_, j', .bind (Run.yields_lift.mpr ⟨hrules, rfl⟩) (.bind hrun (.pure _ _))⟩

theorem exists_result {ids : List String} (hrules : e.validateRules ids = .ok rules)
    (hturns : ∀ n q k, e.Reached rules options d j n q k →
      (e.turn rules options n q).Gives fun _ => True)
    (hbounded : options.budget.passes ≠ .unbounded ∨ options.budget.repairsPerRule ≠ .unbounded) :
    ∃ r j', (e.repair d ids options).Yields j r j' := by
  refine (result_or_reached hrules hturns).resolve_right ?_
  rintro ⟨q, k, h⟩
  have hle := h.number_le_turnLimit (repairsOnly_registered e rules) hbounded options.patience
  rw [List.length_map] at hle
  lia

/-- What the passes of a result look like, and which file it returns. -/
structure Shaped (e : Engine σ) (d : Document σ) (ids : List String) (options : RepairOptions)
    (j₀ : Journal) (r : RepairResult σ) : Prop where
  numbered : r.passes.map (·.number) = List.range' 1 r.passes.length
  length_passes : options.budget.passes.Allows r.passes.length
  length_committed : ∀ m, options.budget.repairsPerRule = .atMost m →
    (r.passes.filter (·.committed)).length ≤ (firstOccurrences ids).length * m
  dropLast_passes : ∀ s ∈ r.passes.dropLast, s.committed = true ∧ 1 ≤ s.applied
  last_uncommitted_iff : (∃ s, r.passes.getLast? = some s ∧ s.committed = false) ↔
    r.stopReason = .fixedPoint ∨ r.stopReason = .passFailure
  maxPasses : r.stopReason = .maxPasses → options.budget.passes = .atMost r.passes.length
  /-- The file is the one given, or the one that the last committed pass has led to. -/
  document : (r.passes.filter (·.committed) = [] ∧ r.document = d) ∨
    ∃ rules d' st st' k k', e.validateRules ids = .ok rules ∧ e.Begins rules options d j₀ d' st ∧
      (runPass ⟨e.language, e.processors⟩ d' options.budget options.mode st).Yields k
        (st', .committed r.document) k' ∧
      (r.passes.filter (·.committed)).getLast? = some st'.pass.summary

theorem Turned.last {reason : StopReason} (h : Turned e options number p p' (some reason)) :
    p'.document = p.document ∧
    ((p'.passes = p.passes ∧ reason ≠ .fixedPoint ∧ reason ≠ .passFailure ∧
        (reason = .maxPasses → options.budget.passes.reached (number - 1) = true)) ∨
      (options.budget.passes.reached (number - 1) = false ∧
        ∃ s, p'.passes = p.passes ++ [s] ∧ s.number = number ∧ s.committed = false ∧
          (reason = .fixedPoint ∨ reason = .passFailure))) := by
  cases h with
  | clean => exact ⟨rfl, .inl ⟨rfl, by simp⟩⟩
  | aborted => exact ⟨rfl, .inl ⟨rfl, by simp⟩⟩
  | exhausted => exact ⟨rfl, .inl ⟨rfl, by simp⟩⟩
  | capped hne hcap => exact ⟨rfl, .inl ⟨rfl, by simp, by simp, fun _ => hcap⟩⟩
  | @stopped hopen st reason k k' hpass =>
    have hsum := summed_of_runPass hpass
    obtain ⟨hcommitted, hreason⟩ := hsum.stopped reason rfl
    exact ⟨rfl, .inr ⟨hopen, st.pass.summary, rfl, hsum.number_eq, hcommitted, hreason⟩⟩

section Shape

variable {ids : List String} {r : RepairResult σ} {q : Progress σ}

theorem OnCourse.filter_passes (h : OnCourse e rules options d j number q) :
    q.passes.filter (·.committed) = q.passes :=
  List.filter_eq_self.mpr fun s hs => (h.committed s hs).1

theorem OnCourse.document_of_rules (h : OnCourse e rules options d j number q)
    (hrules : e.validateRules ids = .ok rules) :
    (q.passes = [] ∧ q.document = d) ∨ ∃ rules d' st st' k k', e.validateRules ids = .ok rules ∧
      e.Begins rules options d j d' st ∧
      (runPass ⟨e.language, e.processors⟩ d' options.budget options.mode st).Yields k
        (st', .committed q.document) k' ∧ q.passes.getLast? = some st'.pass.summary :=
  h.document.imp id fun ⟨d', st, st', k, k', hpass⟩ => ⟨rules, d', st, st', k, k', hrules, hpass⟩

theorem OnCourse.shaped (h : OnCourse e rules options d j number q)
    (hrules : e.validateRules ids = .ok rules)
    (hrepairs : ∀ m, options.budget.repairsPerRule = .atMost m →
      q.passes.length ≤ (firstOccurrences ids).length * m)
    (hpasses : r.passes = q.passes) (hdocument : r.document = q.document)
    (hfixed : r.stopReason ≠ .fixedPoint) (hfailure : r.stopReason ≠ .passFailure)
    (hcapped : r.stopReason = .maxPasses → options.budget.passes.reached (number - 1) = true) :
    Shaped e d ids options j r where
  numbered := by
    rw [hpasses, h.length_passes]
    exact h.numbered
  length_passes := by
    rw [hpasses, h.length_passes]
    exact h.allowed
  length_committed := by
    rw [hpasses, h.filter_passes]
    exact hrepairs
  dropLast_passes s hs := by
    rw [hpasses] at hs
    exact h.committed s (List.dropLast_subset _ hs)
  last_uncommitted_iff := by
    refine iff_of_false ?_ (by simp [hfixed, hfailure])
    rintro ⟨s, hs, hno⟩
    rw [hpasses] at hs
    rw [(h.committed s (List.mem_of_getLast? hs)).1] at hno
    cases hno
  maxPasses hstop := by
    rw [hpasses, h.length_passes]
    exact Cap.eq_atMost (hcapped hstop) h.allowed
  document := by
    rw [hpasses, h.filter_passes, hdocument]
    exact h.document_of_rules hrules

theorem OnCourse.shaped_concat (h : OnCourse e rules options d j number q)
    (hrules : e.validateRules ids = .ok rules)
    (hrepairs : ∀ m, options.budget.repairsPerRule = .atMost m →
      q.passes.length ≤ (firstOccurrences ids).length * m)
    (hopen : options.budget.passes.reached (number - 1) = false) {s : PassSummary}
    (hpasses : r.passes = q.passes ++ [s]) (hnumber : s.number = number)
    (hcommitted : s.committed = false) (hdocument : r.document = q.document)
    (hreason : r.stopReason = .fixedPoint ∨ r.stopReason = .passFailure) :
    Shaped e d ids options j r := by
  have hkept : r.passes.filter (·.committed) = q.passes := by
    have hnone : [s].filter (·.committed) = [] := by simp [hcommitted]
    rw [hpasses, List.filter_append, hnone, List.append_nil, h.filter_passes]
  have hlength : r.passes.length = number - 1 + 1 := by
    rw [hpasses, List.length_append, h.length_passes]
    rfl
  constructor
  case numbered =>
    rw [hlength, hpasses, List.map_append, h.numbered, List.map_singleton, hnumber,
      List.range'_concat]
    congr 2
    have := h.pos
    lia
  case length_passes =>
    rw [hlength]
    exact Cap.allows_succ hopen
  case length_committed =>
    rw [hkept]
    exact hrepairs
  case dropLast_passes =>
    rw [hpasses, List.dropLast_concat]
    exact h.committed
  case last_uncommitted_iff =>
    refine iff_of_true ⟨s, ?_, hcommitted⟩ hreason
    rw [hpasses, List.getLast?_concat]
  case maxPasses =>
    intro hstop
    rw [hstop] at hreason
    simp at hreason
  case document =>
    rw [hkept, hdocument]
    exact h.document_of_rules hrules

/-- The passes of a result are those of the loop and at most one that came to nothing. -/
theorem shaped_of_repair (honly : e.analyzer.ReportsRequested)
    (h : (e.repair d ids options).Yields j r j') : Shaped e d ids options j r := by
  obtain ⟨rules, number, q, p, k, k', hrules, hreached, hturn, hdocument, hpasses, -, -⟩ :=
    repair_cases h
  obtain ⟨remaining, k₁, -, hend⟩ := turn_cases hturn
  have hcourse := hreached.onCourse
  have hrepairs : ∀ m, options.budget.repairsPerRule = .atMost m →
      q.passes.length ≤ (firstOccurrences ids).length * m := by
    intro m hcap
    rw [hcourse.length_passes, ← (validateRules_spec hrules).1]
    exact hreached.number_le_repairs (repairsOnly_requested honly rules) hcap
  obtain ⟨hsame, hlast⟩ := hend.last
  rcases hlast with ⟨hsamePasses, hfixed, hfailure, hcapped⟩ |
    ⟨hopen, s, hmore, hnumber, hcommitted, hreason⟩
  · exact hcourse.shaped hrules hrepairs (hpasses.trans hsamePasses) (hdocument.trans hsame)
      hfixed hfailure hcapped
  · exact hcourse.shaped_concat hrules hrepairs hopen (hpasses.trans hmore) hnumber hcommitted
      (hdocument.trans hsame) hreason

end Shape

/-- A run whose passes or repairs are capped ends. Its loop begins a bounded number of turns, more of
them than the limit make no difference, and with checks that answer it gives a result, of which the
passes and the file are as they should be. -/
theorem repair_ends (e : Engine σ) (d : Document σ) (ids : List String) (options : RepairOptions)
    (j : Journal) (honly : e.analyzer.ReportsRequested)
    (hbounded : options.budget.passes ≠ .unbounded ∨ options.budget.repairsPerRule ≠ .unbounded) :
    (∀ rules, e.validateRules ids = .ok rules →
      (∀ n p k, e.Reached rules options d j n p k → options.budget.passes.Allows (n - 1) ∧
        ∀ m, options.budget.repairsPerRule = .atMost m → n - 1 ≤ rules.length * m) ∧
      (∀ more, (e.turns rules options d.number (turnLimit options.budget rules.length + more) 1
          (start d rules)).run.run j =
        (e.turns rules options d.number (turnLimit options.budget rules.length) 1
          (start d rules)).run.run j) ∧
      (e.analyzer.Answers → d.tree.WellFormed → ∃ r j', (e.repair d ids options).Yields j r j')) ∧
    ∀ r j', (e.repair d ids options).Yields j r j' → Shaped e d ids options j r := by
  refine ⟨fun rules hrules => ?_, fun r j' hrun => shaped_of_repair honly hrun⟩
  have hids := repairsOnly_requested honly rules
  have hlimit : ∀ n q k, e.Reached rules options d j n q k →
      n ≤ turnLimit options.budget rules.length :=
    fun n q k h => h.number_le_turnLimit hids hbounded _
  have hfuel : turnLimit options.budget rules.length <
      1 + turnLimit options.budget rules.length := by lia
  refine ⟨fun n p k h => ⟨h.onCourse.allowed, fun m hcap => h.number_le_repairs hids hcap⟩,
    fun more => Reached.start.turns_add hlimit hfuel more, fun hanswers hd => ?_⟩
  refine exists_result hrules (fun n q k h => ?_) hbounded
  have hq := h.wellFormed hd
  refine gives_turn (fun k => ?_) hq options n
  obtain ⟨vs, k', hchecks, hvs⟩ := hanswers q.document rules hq k
  exact ⟨vs, k', hchecks, hvs.live⟩

theorem reportsRequested_relabeling : relabeling.analyzer.ReportsRequested := by
  intro d rules j vs j' h v hv
  obtain ⟨rfl, -⟩ := Run.yields_pure.mp h
  split at hv
  · next hr =>
    rw [List.mem_singleton.mp hv]
    exact List.contains_iff_mem.mp (Bool.and_eq_true _ _ ▸ hr).1
  · exact absurd hv List.not_mem_nil

theorem answers_relabeling : relabeling.analyzer.Answers := by
  intro d rules hd
  refine Run.gives_pure ?_
  split
  · next hr =>
    refine ⟨?_, by simp⟩
    simp only [List.mem_singleton, forall_eq]
    exact Tree.isValid_iff.mp (Bool.and_eq_true _ _ ▸ hr).2
  · exact ⟨fun v hv => absurd hv List.not_mem_nil, fun v hv => absurd hv List.not_mem_nil⟩

theorem repair_ends_relabeling : ∃ r j',
    (relabeling.repair nestedDocument ["r"] frugal).Yields {} r j' ∧ r.passes.length = 1 ∧
      Shaped relabeling nestedDocument ["r"] frugal {} r := by
  obtain ⟨r, j', hrun, -, hpasses⟩ := relabeling_run
  have hends := repair_ends relabeling nestedDocument ["r"] frugal {} reportsRequested_relabeling
    (.inr (by simp [frugal]))
  obtain ⟨r', k, hagain⟩ := (hends.1 ["r"] rfl).2.2 answers_relabeling
    (Tree.wellFormed_ofTemplate ..)
  obtain rfl := hrun.unique hagain
  refine ⟨r, j', hrun, ?_, hends.2 r j' hrun⟩
  simpa using congrArg List.length hpasses

end Engine

end LintRepair
