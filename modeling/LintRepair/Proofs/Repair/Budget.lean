import LintRepair.Proofs.Repair.FixedPoint

/-!
# The cap on the repairs of a rule

The repairs of a rule that are applied, together with those that the pass under way has produced,
never go beyond the cap, and a violation is only left for lack of budget when the cap is reached.
`Solvent` is what the rounds of a pass keep; `Engine.repair_capKept` says it of every point of a run.
-/
namespace LintRepair

variable {σ : Type} {shop : Workshop σ} {d d' : Document σ} {budget : Budget} {vs : List Violation}
  {v : Violation} {st final x : PassState} {rounds : List (List Handling)} {j j' : Journal}
  {id : String}

namespace Cap

variable {cap : Cap} {m n : Nat}

def Allows : Cap → Nat → Prop
  | atMost m, n => n ≤ m
  | unbounded, _ => True

theorem Allows.mono (h : cap.Allows n) (hmn : m ≤ n) : cap.Allows m := by
  cases cap with
  | atMost limit => exact Nat.le_trans hmn h
  | unbounded => trivial

theorem allows_zero (cap : Cap) : cap.Allows 0 := by
  cases cap with
  | atMost limit => exact Nat.zero_le limit
  | unbounded => trivial

theorem allows_succ (h : cap.reached n = false) : cap.Allows (n + 1) := by
  cases cap with
  | atMost limit =>
    simp only [reached, decide_eq_false_iff_not] at h
    simp only [Allows]
    lia
  | unbounded => trivial

theorem not_reached (h : cap.Allows n) (hm : m < n) : cap.reached m = false := by
  cases cap with
  | atMost limit =>
    simp only [Allows] at h
    exact decide_eq_false (by lia)
  | unbounded => rfl

theorem reached_mono (h : cap.reached m = true) (hmn : m ≤ n) : cap.reached n = true := by
  cases cap with
  | atMost limit =>
    simp only [reached, decide_eq_true_eq] at h ⊢
    lia
  | unbounded => cases h

theorem eq_atMost (h : cap.reached n = true) (hn : cap.Allows n) : cap = .atMost n := by
  cases cap with
  | atMost limit =>
    simp only [reached, decide_eq_true_eq] at h
    exact congrArg atMost (Nat.le_antisymm h hn)
  | unbounded => cases h

end Cap

namespace PassState

/-- The repairs of a rule that are applied or were produced in the pass. -/
def spent (st : PassState) (id : String) : Nat :=
  st.statistics.applied id + st.pass.producedFor id

theorem spent_settle (st : PassState) (h : Handling) (id : String) :
    (st.settle h).spent id =
      st.spent id + (producedBy [h]).countP fun set => set.ruleId = id := by
  rw [spent, spent, applied_settle, settle, Pass.producedFor, Pass.producedFor, Pass.filed,
    List.countP_append]
  lia

theorem spent_le_settle (st : PassState) (h : Handling) (id : String) :
    st.spent id ≤ (st.settle h).spent id := by
  rw [spent_settle]
  lia

theorem spent_foldl_settle (st : PassState) (hs : List Handling) (id : String) :
    (hs.foldl settle st).spent id =
      st.spent id + (producedBy hs).countP fun set => set.ruleId = id := by
  rw [spent, spent, applied_foldl_settle, foldl_settle_pass, Pass.producedFor, Pass.producedFor,
    Pass.filed, List.countP_append]
  lia

theorem spent_opening (file : String) (number : Nat) (vs : List Violation)
    (statistics : Statistics) (id : String) :
    (opening file number vs statistics).spent id = statistics.applied id := rfl

/-- No rule is over the cap, and the rules of skipped violations are at it. -/
structure Solvent (budget : Budget) (st : PassState) : Prop where
  allows : ∀ id, budget.repairsPerRule.Allows (st.spent id)
  skipped : ∀ v ∈ st.pass.skipped, budget.repairsPerRule.reached (st.spent v.ruleId) = true

theorem Solvent.settle (h : st.Solvent budget) (shop : Workshop σ) (d : Document σ)
    (v : Violation) : (st.settle ⟨v, st.fate shop d budget v⟩).Solvent budget := by
  have hspent := st.spent_settle ⟨v, st.fate shop d budget v⟩
  by_cases hfull : budget.repairsPerRule.reached (st.spent v.ruleId) = true
  · have hfate : st.fate shop d budget v = .skipped := if_pos hfull
    rw [hfate] at hspent ⊢
    constructor
    · intro id
      rw [hspent]
      exact h.allows id
    · intro w hw
      rw [hspent]
      rcases List.mem_append.mp hw with hw | hw
      · exact h.skipped w hw
      · rw [List.mem_singleton.mp hw]
        exact hfull
  · have hfate : st.fate shop d budget v = reply shop d v := if_neg hfull
    rw [Bool.not_eq_true] at hfull
    constructor
    · intro id
      rw [hspent, hfate]
      -- Only a produced set counts, and it belongs to the rule that was not at its cap.
      cases hreply : reply shop d v with
      | produced set =>
        change budget.repairsPerRule.Allows
          (st.spent id + [set].countP fun set => set.ruleId = id)
        rw [List.countP_singleton, EditSet.ruleId, (reply_produced hreply).1]
        by_cases hid : v.ruleId = id
        · subst hid
          rw [if_pos (by simp)]
          exact Cap.allows_succ hfull
        · rw [if_neg (by simpa using hid)]
          exact h.allows id
      | skipped => exact h.allows id
      | declined => exact h.allows id
      | crashed message => exact h.allows id
    · intro w hw
      have hnew : Handling.skipped? ⟨v, st.fate shop d budget v⟩ = none :=
        Handling.skipped?_eq_none (hfate ▸ reply_ne_skipped)
      have hw : w ∈ st.pass.skipped := by
        rcases List.mem_append.mp hw with hw | hw
        · exact hw
        · rw [List.filterMap_cons_none hnew] at hw
          exact absurd hw List.not_mem_nil
      exact Cap.reached_mono (h.skipped w hw) (spent_le_settle ..)

theorem Solvent.enter (h : st.Solvent budget) (split : Split Violation) :
    (st.enter split).Solvent budget := ⟨h.allows, h.skipped⟩

theorem Solvent.handle (h : st.Solvent budget) (shop : Workshop σ) (d : Document σ)
    (vs : List Violation) :
    ((st.handle shop d budget vs).foldl PassState.settle st).Solvent budget := by
  induction vs generalizing st with
  | nil => exact h
  | cons v rest ih => exact ih (h.settle shop d v)

theorem Solvent.work (h : st.Solvent budget)
    (hwork : (st.work shop d budget vs).Yields j x j') : x.Solvent budget := by
  obtain ⟨k, hk⟩ := work_yields shop d budget st vs j
  rw [hwork.unique hk]
  exact h.handle shop d vs

/-- The states that the rounds over some violations go through, from one violation to the next. -/
inductive Visits (shop : Workshop σ) (d : Document σ) (budget : Budget) :
    List Violation → PassState → PassState → Prop where
  | here (vs : List Violation) (st : PassState) : Visits shop d budget vs st st
  | within {vs st split front back x j j'}
      (hsplit : d.tree.resolveConflicts vs st.claimed = .ok split)
      (htaken : split.taken = front ++ back)
      (hwork : ((st.enter split).work shop d budget front).Yields j x j') :
      Visits shop d budget vs st x
  | later {vs st split next x j j'}
      (hsplit : d.tree.resolveConflicts vs st.claimed = .ok split) (hsome : split.taken ≠ [])
      (hwork : ((st.enter split).work shop d budget split.taken).Yields j next j')
      (hlater : Visits shop d budget split.waiting next x) : Visits shop d budget vs st x

theorem Visits.solvent (h : Visits shop d budget vs st x) (hst : st.Solvent budget) :
    x.Solvent budget := by
  induction h with
  | here vs st => exact hst
  | within _ _ hwork => exact (hst.enter _).work hwork
  | later _ _ hwork _ ih => exact ih ((hst.enter _).work hwork)

end PassState

open PassState

theorem Rounds.solvent (h : Rounds shop d budget vs st rounds final) (hst : st.Solvent budget) :
    final.Solvent budget := by
  induction h with
  | done st => exact hst
  | stuck => exact hst.enter _
  | round _ _ _ _ ih => exact ih ((hst.enter _).handle shop d _)

theorem Pass.countP_taken_le {t : Tree} {p : Pass} {selection : Split EditSet}
    (h : t.selectCompatible p.produced = .ok selection) (id : String) :
    (selection.taken.countP fun set => set.ruleId = id) ≤ p.producedFor id := by
  have hperm := (Tree.perm_takeClear h).countP_eq fun set => set.ruleId = id
  rw [List.countP_append] at hperm
  rw [producedFor]
  lia

namespace Engine

variable {e : Engine σ} {rules : List String} {options : RepairOptions} {p p' : Progress σ}
  {number : Nat} {stop : Option StopReason} {remaining : List Violation}

theorem Turned.allows (h : Turned e options number p p' stop)
    (hp : ∀ id, options.budget.repairsPerRule.Allows (p.statistics.applied id)) :
    ∀ id, options.budget.repairsPerRule.Allows (p'.statistics.applied id) := by
  have hpass : ∀ {st outcome k k'},
      (runPass ⟨e.language, e.processors⟩ p.document options.budget options.mode
        (p.opening options.budget number)).Yields k (st, outcome) k' →
      ∀ id, options.budget.repairsPerRule.Allows (st.statistics.applied id) := by
    intro st outcome k k' hrun id
    obtain ⟨rounds, final, selection, hrounds, hselect, hend⟩ := runPass_cases hrun
    have hfinal : options.budget.repairsPerRule.Allows (final.spent id) :=
      (hrounds.solvent ⟨hp, fun v hv => absurd hv List.not_mem_nil⟩).allows id
    cases outcome with
    | stopped reason => cases hend <;> exact hfinal.mono (Nat.le_add_right _ _)
    | committed next =>
      rw [hend.committed_spec.2]
      exact hfinal.mono (Nat.add_le_add_left (Pass.countP_taken_le hselect id) _)
  cases h with
  | clean => exact hp
  | aborted => exact hp
  | exhausted => exact hp
  | capped => exact hp
  | stopped hopen hrun => exact hpass hrun
  | committed hopen hrun => exact hpass hrun

theorem applied_analyzed (p : Progress σ) (number : Nat) (remaining : List Violation)
    (id : String) : (p.analyzed number remaining).statistics.applied id =
      p.statistics.applied id := by
  unfold Progress.analyzed
  dsimp only
  split
  · exact Statistics.applied_addFound ..
  · rfl

theorem Reached.allows {j₀ : Journal} (h : e.Reached rules options d j₀ number p j) :
    ∀ id, options.budget.repairsPerRule.Allows (p.statistics.applied id) := by
  induction h with
  | start =>
    intro id
    rw [Engine.start, Statistics.applied_track]
    exact Cap.allows_zero _
  | @next number p p' j k k' _ hturn _ ih =>
    obtain ⟨remaining, k, -, hend⟩ := turn_cases hturn
    refine hend.allows fun id => ?_
    rw [applied_analyzed]
    exact ih id

theorem Begins.solvent {j₀ : Journal} (h : e.Begins rules options d j₀ d' st) :
    st.Solvent options.budget := by
  obtain ⟨number, p, remaining, k, k', hreached, -, -, rfl⟩ := h
  refine ⟨fun id => ?_, fun v hv => absurd hv List.not_mem_nil⟩
  rw [Progress.opening, spent_opening, applied_analyzed]
  exact hreached.allows id

/-- The cap on the repairs of a rule, at every point of a run: between two turns, at each violation
of a pass, and while the repairs of a committed pass are counted, each of them counting as produced
until it counts as applied. -/
structure CapKept (e : Engine σ) (rules : List String) (options : RepairOptions)
    (d : Document σ) (j₀ : Journal) : Prop where
  between : ∀ number p k, e.Reached rules options d j₀ number p k → ∀ id,
    options.budget.repairsPerRule.Allows (p.statistics.applied id)
  within : ∀ d' st, e.Begins rules options d j₀ d' st → ∀ x,
    Visits ⟨e.language, e.processors⟩ d' options.budget st.pass.violations st x → ∀ id,
    options.budget.repairsPerRule.Allows (x.statistics.applied id + x.pass.producedFor id)
  counting : ∀ d' st, e.Begins rules options d j₀ d' st → ∀ final selection k k',
    (st.rounds ⟨e.language, e.processors⟩ d' options.budget st.pass.violations).Yields k final k' →
    d'.tree.selectCompatible final.pass.produced = .ok selection →
    ∀ before after, selection.taken = before ++ after → ∀ id,
    options.budget.repairsPerRule.Allows ((final.statistics.addBatch before).applied id +
      after.countP fun set => set.ruleId = id)
  /-- A pass skips a violation only if it ends with the cap of its rule used up. -/
  skipping : ∀ d' st, e.Begins rules options d j₀ d' st → ∀ final k k',
    (st.rounds ⟨e.language, e.processors⟩ d' options.budget st.pass.violations).Yields k final k' →
    ∀ v ∈ final.pass.skipped, options.budget.repairsPerRule =
      .atMost (final.statistics.applied v.ruleId + final.pass.producedFor v.ruleId)

theorem capKept (e : Engine σ) (rules : List String) (options : RepairOptions) (d : Document σ)
    (j₀ : Journal) : CapKept e rules options d j₀ where
  between _ _ _ h := h.allows
  within _ _ h _ hx := (hx.solvent h.solvent).allows
  counting d' st h final selection k k' hrounds hselect before after htaken id := by
    obtain ⟨rounds, hrounds⟩ := exists_rounds_of_yields hrounds
    have hfinal := (hrounds.solvent h.solvent).allows id
    have hle := Pass.countP_taken_le hselect id
    rw [htaken, List.countP_append] at hle
    refine hfinal.mono ?_
    rw [Statistics.applied_addBatch, spent]
    lia
  skipping d' st h final k k' hrounds v hv := by
    obtain ⟨rounds, hrounds⟩ := exists_rounds_of_yields hrounds
    have hfinal := hrounds.solvent h.solvent
    exact Cap.eq_atMost (hfinal.skipped v hv) (hfinal.allows v.ruleId)

/-- The cap on repairs is kept throughout a run; and a run ends for lack of budget only if the file
that it returns still has violations and the cap of each of their rules is used up exactly. -/
theorem repair_capKept (e : Engine σ) (d : Document σ) (ids : List String)
    (options : RepairOptions) (j : Journal) :
    (∀ rules, e.validateRules ids = .ok rules → CapKept e rules options d j) ∧
    ∀ r j', (e.repair d ids options).Yields j r j' → r.stopReason = .budgetExhausted →
      r.remaining ≠ [] ∧
      (∃ rules k k', e.validateRules ids = .ok rules ∧
        (e.analyzer.runChecks r.document rules).Yields k r.remaining k') ∧
      ∀ v ∈ r.remaining,
        options.budget.repairsPerRule = .atMost (r.statistics.applied v.ruleId) := by
  refine ⟨fun rules _ => capKept e rules options d j, ?_⟩
  intro r j' hrun hstop
  obtain ⟨rules, number, q, p, k, k', hrules, hreached, hturn, hdocument, -, hremaining,
    hstatistics⟩ := repair_cases hrun
  obtain ⟨remaining, k₁, hchecks, hend⟩ := turn_cases hturn
  rw [hstop] at hend
  generalize hq : q.analyzed number remaining = analyzed at hend
  have hallows : ∀ id, options.budget.repairsPerRule.Allows (analyzed.statistics.applied id) := by
    intro id
    rw [← hq, applied_analyzed]
    exact hreached.allows id
  cases hend with
  | exhausted hne hactive =>
    subst hq
    rw [hremaining, hdocument]
    refine ⟨hne, ⟨rules, k, k₁, hrules, hchecks⟩, fun v hv => ?_⟩
    rw [hstatistics, Statistics.applied_setRemaining]
    have hfull := List.filter_eq_nil_iff.mp hactive v hv
    simp only [Bool.not_eq_true', Bool.not_eq_false] at hfull
    exact Cap.eq_atMost hfull (hallows v.ruleId)
  | stopped hopen hpass =>
    obtain ⟨_, _, _, _, _, hconcluded⟩ := runPass_cases hpass
    cases hconcluded

theorem repair_capKept_relabeling :
    ∃ r j', (relabeling.repair nestedDocument ["r"] frugal).Yields {} r j' ∧ r.remaining ≠ [] ∧
      ∀ v ∈ r.remaining, r.statistics.applied v.ruleId = 1 := by
  obtain ⟨r, j', hrun, hstop, -⟩ := relabeling_run
  obtain ⟨-, hended⟩ := repair_capKept relabeling nestedDocument ["r"] frugal {}
  obtain ⟨hne, -, hfull⟩ := hended r j' hrun hstop
  exact ⟨r, j', hrun, hne, fun v hv => (Cap.atMost.inj (hfull v hv)).symm⟩

end Engine
end LintRepair
