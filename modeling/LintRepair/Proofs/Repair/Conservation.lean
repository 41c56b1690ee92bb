import LintRepair.Proofs.Repair.FixedPoint

/-!
# No violation gets lost in a pass

A pass files every violation that it was opened with under one fate: it is deferred, skipped, declined
or crashed, or it has an edit set that is rejected or selected. The fates of one list of handled
violations are counted first; the rounds and the selection only move whole lists around.
-/
namespace LintRepair

variable {σ : Type} {shop : Workshop σ} {d d' : Document σ} {budget : Budget}
  {requested : RenderMode} {vs : List Violation} {hs : List Handling} {st st' : PassState}
  {outcome : PassOutcome σ} {j j' j₀ : Journal}

/-- The record of a crash at a violation. -/
def Violation.crashRecord (v : Violation) (number : Nat) (message : String) : CrashRecord :=
  ⟨v.ruleId, v.file, v.location.line, v.location.column, v.nodeKind, number, message⟩

namespace Handling

def crashed? (h : Handling) : Option (Violation × String) :=
  match h.fate with
  | .crashed message => some (h.violation, message)
  | _ => none

theorem crash?_eq (h : Handling) (number : Nat) :
    h.crash? number = h.crashed?.map fun x => x.1.crashRecord number x.2 := by
  unfold crash? crashed?
  cases h.fate <;> rfl

theorem count_fates (h : Handling) (hset : ∀ s, h.set? = some s → s.violation = h.violation)
    (v : Violation) :
    h.skipped?.toList.count v + h.declined?.toList.count v + (h.crashed?.toList.map (·.1)).count v +
      (h.set?.toList.map (·.violation)).count v = [h.violation].count v := by
  unfold skipped? declined? crashed? set? at *
  cases hfate : h.fate with
  | skipped => simp
  | declined => simp
  | crashed message => simp
  | produced s =>
    rw [hfate] at hset
    simp [hset s rfl]

end Handling

/-- Of violations that were handled none is lost, and none is counted twice. -/
theorem perm_fates (hf : Faithful shop d hs) :
    (hs.filterMap Handling.skipped? ++ hs.filterMap Handling.declined? ++
      (hs.filterMap Handling.crashed?).map (·.1) ++ (producedBy hs).map (·.violation)).Perm
        (hs.map (·.violation)) := by
  -- The four buckets interleave in the order of handling, so each violation is counted by itself.
  rw [List.perm_iff_count]
  intro v
  induction hs with
  | nil => rfl
  | cons h rest ih =>
    have hfirst := h.count_fates (fun s hs => (hf.set_spec List.mem_cons_self hs).1) v
    have hlater := ih fun g hg => hf g (List.mem_cons_of_mem _ hg)
    have hsplit : ∀ {β : Type} (f : Handling → Option β),
        (h :: rest).filterMap f = (f h).toList ++ rest.filterMap f := by
      intro β f
      rw [List.filterMap_cons]
      cases f h <;> rfl
    have hmap : (h :: rest).map (·.violation) = [h.violation] ++ rest.map (·.violation) := rfl
    simp only [producedBy, hsplit, hmap, List.map_append, List.count_append] at hfirst hlater ⊢
    omega

/-- The violations of a pass, each in one of its buckets. -/
structure Pass.Divides (p : Pass) (vs : List Violation) : Prop where
  violations : p.violations = vs
  buckets : ∃ crashed : List (Violation × String),
    p.crashes = crashed.map (fun x => x.1.crashRecord p.number x.2) ∧
    (p.deferred ++ p.skipped ++ p.declined ++ crashed.map (·.1) ++ p.conflicts.map (·.violation) ++
      p.selected.map (·.violation)).Perm vs
  accepted : (p.accepted ++ p.deferred).Perm vs
  chosen : (p.selected ++ p.conflicts).Perm p.produced
  selects : p.produced ≠ [] → p.selected ≠ []

/-- The counts of a summary add up, with this many selected edit sets. -/
structure PassSummary.Balanced (s : PassSummary) (selected : Nat) : Prop where
  violations : s.violations = s.accepted + s.deferred
  accepted : s.accepted = s.declined + s.crashed + s.skipped + s.conflicts + selected
  applied : s.applied = if s.committed then selected else 0

theorem Pass.Divides.balanced {p : Pass} (h : p.Divides vs) :
    p.summary.Balanced p.selected.length := by
  obtain ⟨crashed, hcrashes, hbuckets⟩ := h.buckets
  have hall := hbuckets.length_eq
  have haccepted := h.accepted.length_eq
  have hcrashed := congrArg List.length hcrashes
  have hviolations := congrArg List.length h.violations
  simp only [List.length_append, List.length_map] at hall haccepted hcrashed
  constructor
  · simp only [Pass.summary]
    lia
  · simp only [Pass.summary]
    lia
  · rfl

/-- What the rounds of a pass leave, with any selection from what they produced. -/
theorem Rounds.divides {file : String} {number : Nat} {statistics : Statistics}
    {rounds : List (List Handling)} {final : PassState} {selection : Split EditSet}
    (h : Rounds shop d budget vs (.opening file number vs statistics) rounds final)
    (hselect : d.tree.selectCompatible final.pass.produced = .ok selection)
    (mode : Option RenderMode) (committed : Bool) :
    ({ final.pass with
      selected := selection.taken
      conflicts := selection.waiting
      renderMode := mode
      committed := committed } : Pass).Divides vs := by
  have hfates := perm_fates h.faithful
  have hall := h.perm fun _ => rfl
  have hchosen := Tree.perm_takeClear hselect
  have hsets := hchosen.map (·.violation)
  have hsome := Tree.takeClear_ne_nil hselect
  rw [h.produced_eq] at hchosen hsets hsome
  rw [h.pass_eq]
  have hcrashes : rounds.flatten.filterMap (Handling.crash? number) =
      (rounds.flatten.filterMap Handling.crashed?).map fun x => x.1.crashRecord number x.2 := by
    rw [List.map_filterMap]
    exact congrArg (List.filterMap · _) (funext fun g => g.crash?_eq number)
  refine ⟨rfl, ⟨rounds.flatten.filterMap Handling.crashed?, hcrashes, ?_⟩, hall, hchosen, hsome⟩
  -- Accepted and deferred make up all, the fates the accepted ones, and the selection the produced.
  rw [List.perm_iff_count] at hfates hall hsets ⊢
  intro v
  have hfate := hfates v
  have hone := hall v
  have hset := hsets v
  simp only [Pass.filed, PassState.opening, List.nil_append, List.count_append, List.map_append]
    at hfate hone hset ⊢
  lia

theorem runPass_divides {file : String} {number : Nat} {statistics : Statistics}
    (h : (runPass shop d budget requested (.opening file number vs statistics)).Yields j
      (st', outcome) j') :
    st'.pass.Divides vs ∧ (st'.pass.committed = true ↔ ∃ next, outcome = .committed next) := by
  obtain ⟨rounds, final, selection, hrounds, hselect, hend⟩ := runPass_cases h
  have hopen : final.pass.committed = false := by
    rw [hrounds.pass_eq]
    rfl
  have hdivides := hrounds.divides hselect
  cases hend with
  | fixedPoint =>
    refine ⟨hdivides _ _, iff_of_false ?_ fun ⟨next, hnext⟩ => nomatch hnext⟩
    simp [hopen]
  | failed =>
    refine ⟨hdivides _ _, iff_of_false ?_ fun ⟨next, hnext⟩ => nomatch hnext⟩
    simp [Pass.chosen, hopen]
  | committed hsome => exact ⟨hdivides _ _, iff_of_true rfl ⟨_, rfl⟩⟩

namespace Engine

variable {e : Engine σ} {rules ids : List String} {options : RepairOptions} {p p' : Progress σ}
  {number : Nat} {stop : Option StopReason} {s : PassSummary}

/-- The loop of a run begins a pass in the first state, and the pass ends in the second. -/
def Makes (e : Engine σ) (rules : List String) (options : RepairOptions) (d : Document σ)
    (j₀ : Journal) (d' : Document σ) (st st' : PassState) (outcome : PassOutcome σ) : Prop :=
  e.Begins rules options d j₀ d' st ∧ ∃ k k',
    (runPass ⟨e.language, e.processors⟩ d' options.budget options.mode st).Yields k (st', outcome) k'

theorem Makes.divides (h : e.Makes rules options d j₀ d' st st' outcome) :
    st'.pass.Divides st.pass.violations ∧
      (st'.pass.committed = true ↔ ∃ next, outcome = .committed next) := by
  obtain ⟨⟨number, p, remaining, k, k', -, -, rfl, rfl⟩, k₁, k₂, hpass⟩ := h
  exact runPass_divides hpass

theorem exists_makes_of_turn (hreached : e.Reached rules options d j₀ number p j)
    (h : (e.turn rules options number p).Yields j (p', stop) j') (hs : s ∈ p'.passes)
    (hnew : s ∉ p.passes) :
    ∃ d' st st' outcome, e.Makes rules options d j₀ d' st st' outcome ∧ s = st'.pass.summary := by
  obtain ⟨remaining, k, hchecks, hend⟩ := turn_cases h
  have hbegins : e.Begins rules options d j₀ p.document
      ((p.analyzed number remaining).opening options.budget number) :=
    ⟨number, p, remaining, j, k, hreached, hchecks, rfl, rfl⟩
  have hlast : ∀ st : PassState, s ∈ ((p.analyzed number remaining).record st).passes →
      s = st.pass.summary := fun st hs =>
    List.mem_singleton.mp ((List.mem_append.mp hs).resolve_left hnew)
  cases hend with
  | clean => exact absurd hs hnew
  | aborted => exact absurd hs hnew
  | exhausted => exact absurd hs hnew
  | capped => exact absurd hs hnew
  | stopped _ hpass => exact ⟨_, _, _, _, ⟨hbegins, _, _, hpass⟩, hlast _ hs⟩
  | committed _ hpass => exact ⟨_, _, _, _, ⟨hbegins, _, _, hpass⟩, hlast _ hs⟩

theorem Reached.exists_makes (h : e.Reached rules options d j₀ number p j) (hs : s ∈ p.passes) :
    ∃ d' st st' outcome, e.Makes rules options d j₀ d' st st' outcome ∧ s = st'.pass.summary := by
  induction h with
  | start => exact absurd hs List.not_mem_nil
  | @next number p p' j k k' hreached hturn _ ih =>
    by_cases hold : s ∈ p.passes
    · exact ih hold
    · exact exists_makes_of_turn hreached hturn hs hold

theorem exists_makes_of_repair {r : RepairResult σ} (h : (e.repair d ids options).Yields j r j') :
    ∃ rules, e.validateRules ids = .ok rules ∧ ∀ s ∈ r.passes, ∃ d' st st' outcome,
      e.Makes rules options d j d' st st' outcome ∧ s = st'.pass.summary := by
  obtain ⟨rules, n, q, p, k, k', hrules, hreached, hturn, -, hpasses, -, -⟩ := repair_cases h
  refine ⟨rules, hrules, fun s hs => ?_⟩
  rw [hpasses] at hs
  by_cases hold : s ∈ q.passes
  · exact hreached.exists_makes hold
  · exact exists_makes_of_turn hreached hturn hs hold

/-- In every pass of a run each active violation ends in exactly one bucket, and the counts of the
summaries that a result lists are those of such passes. -/
theorem repair_divides (e : Engine σ) (d : Document σ) (options : RepairOptions) (j : Journal) :
    (∀ rules d' st st' outcome, e.Makes rules options d j d' st st' outcome →
      st'.pass.Divides st.pass.violations ∧
      st'.pass.summary.Balanced st'.pass.selected.length ∧
      (st'.pass.committed = true ↔ ∃ next, outcome = .committed next)) ∧
    ∀ ids r j', (e.repair d ids options).Yields j r j' → ∀ s ∈ r.passes,
      ∃ rules d' st st' outcome, e.validateRules ids = .ok rules ∧
        e.Makes rules options d j d' st st' outcome ∧ s = st'.pass.summary := by
  refine ⟨fun rules d' st st' outcome hmakes => ?_, fun ids r j' hrun s hs => ?_⟩
  · obtain ⟨hdivides, hcommitted⟩ := hmakes.divides
    exact ⟨hdivides, hdivides.balanced, hcommitted⟩
  · obtain ⟨rules, hrules, hmakes⟩ := exists_makes_of_repair hrun
    obtain ⟨d', st, st', outcome, hmade, hsummary⟩ := hmakes s hs
    exact ⟨rules, d', st, st', outcome, hrules, hmade, hsummary⟩

theorem repair_divides_relabeling : ∃ r j', ∃ s : PassSummary, ∃ st st' : PassState,
    (relabeling.repair nestedDocument ["r"] frugal).Yields {} r j' ∧ s ∈ r.passes ∧
    s = st'.pass.summary ∧ st'.pass.Divides st.pass.violations ∧
    s.Balanced st'.pass.selected.length ∧ s.applied = st'.pass.selected.length := by
  obtain ⟨r, j', hrun, -, hcommitted⟩ := relabeling_run
  obtain ⟨hpasses, hlisted⟩ := repair_divides relabeling nestedDocument frugal {}
  obtain ⟨s, hs⟩ : ∃ s, r.passes = [s] := by
    rw [← List.length_eq_one_iff]
    simpa using congrArg List.length hcommitted
  have hmem : s ∈ r.passes := by
    rw [hs]
    exact List.mem_singleton_self s
  have hdone : s.committed = true := by
    rw [hs] at hcommitted
    simpa using hcommitted
  obtain ⟨rules, d', st, st', outcome, -, hmakes, hsummary⟩ := hlisted _ r j' hrun s hmem
  obtain ⟨hdivides, hbalanced, -⟩ := hpasses rules d' st st' outcome hmakes
  rw [← hsummary] at hbalanced
  refine ⟨r, j', s, st, st', hrun, hmem, hsummary, hdivides, hbalanced, ?_⟩
  rw [hbalanced.applied, if_pos hdone]

end Engine
end LintRepair
