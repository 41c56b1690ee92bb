import LintRepair.Proofs.Repair.Results

/-!
# Runs that are cut short

A signal and a cap end a run between two passes, and up to there it is the run that it would have
been. So runs that are cut short at the same turn come to the same, whatever cuts them short, and
the passes of a shorter run are the first passes of a longer one.
-/
namespace LintRepair

variable {σ : Type}

/-- The options of a run that nothing but its budget ends early. -/
def RepairOptions.within (mode : RenderMode) (budget : Budget) : RepairOptions := { mode, budget }

/-- The options of a run whose signal is set from this look on. -/
def RepairOptions.signalled (mode : RenderMode) (budget : Budget) (look : Nat) : RepairOptions :=
  { mode, budget, abortAfter := some look }

/-- Results of the same work, for whatever reason it ended. -/
structure RepairResult.SameWork (r r' : RepairResult σ) : Prop where
  filePath : r.filePath = r'.filePath
  text : r.text = r'.text
  document : r.document.Same r'.document
  changed : r.changed = r'.changed
  passes : r.passes = r'.passes
  statistics : r.statistics = r'.statistics
  remaining : r.remaining = r'.remaining

namespace Engine

variable {e : Engine σ} {rules ids : List String} {options options' : RepairOptions}
  {p p' : Progress σ} {looks looks' k i : Nat} {ts : List (TurnReport σ)}
  {t last : TurnReport σ} {reason : StopReason} {text : Text} {file : String} {j j' : Journal}

/-- Why a run would stop in a turn, given what the checks have found. -/
def Progress.halt? (p : Progress σ) (options : RepairOptions) (looks i : Nat) : Option StopReason :=
  p.verdict options.budget (options.interruptedAfter (looks + i * options.looks)) (1 + i)

/-- A run with the other options does the same in its first turns, and then it halts. -/
structure Cuts (σ : Type) (options : RepairOptions) (looks : Nat) (options' : RepairOptions)
    (looks' k : Nat) : Prop where
  mode : options.mode = options'.mode
  repairsPerRule : options.budget.repairsPerRule = options'.budget.repairsPerRule
  before : ∀ i < k, ∀ p : Progress σ, p.halt? options looks i = p.halt? options' looks' i
  halts : ∀ p : Progress σ, p.halt? options' looks' k ≠ none

theorem after_congr (hmode : options.mode = options'.mode)
    (hcap : options.budget.repairsPerRule = options'.budget.repairsPerRule) (t : TurnReport σ)
    (number : Nat) (p : Progress σ) (n : Nat) :
    t.after options number p n = t.after options' number p n := by
  have hactive : ∀ statistics vs, withinBudget options.budget statistics vs =
      withinBudget options'.budget statistics vs :=
    fun statistics vs => withinBudget_congr (fun id => by rw [hcap]) vs
  cases t with
  | halted remaining reason => rfl
  | passed remaining pass =>
    rw [TurnReport.after, TurnReport.after, Progress.after, Progress.after, hmode, hactive]

theorem run_congr (hmode : options.mode = options'.mode)
    (hcap : options.budget.repairsPerRule = options'.budget.repairsPerRule) (p : Progress σ)
    (number : Nat) (ts : List (TurnReport σ)) :
    p.run options number ts = p.run options' number ts := by
  induction ts generalizing p number with
  | nil => rfl
  | cons t rest ih => rw [Progress.run, Progress.run, ih, after_congr hmode hcap]

namespace Cuts

theorem takes (hcut : Cuts σ options looks options' looks' k) (hi : i < k)
    (h : e.Takes rules options (1 + i) (looks + i * options.looks) p t) :
    e.Takes rules options' (1 + i) (looks' + i * options'.looks) p t := by
  refine h.transfer (fun _ hvs => hvs) (.refl _) hcut.mode ?_ (hcut.before i hi _)
  rw [hcut.repairsPerRule]
  exact fun _ _ => rfl

theorem leads (hcut : Cuts σ options looks options' looks' k) (hi : i + ts.length ≤ k)
    (h : e.Leads rules options (1 + i) (looks + i * options.looks) p ts) :
    e.Leads rules options' (1 + i) (looks' + i * options'.looks) p ts := by
  induction ts generalizing i p with
  | nil => exact .nil _ _ _
  | cons t rest ih =>
    have hnext : ∀ a l : Nat, a + i * l + l = a + (i + 1) * l := fun a l => by
      rw [Nat.add_assoc, ← Nat.succ_mul]
    rw [List.length_cons] at hi
    cases h with
    | cons htakes hstop hrest =>
      refine .cons (hcut.takes (by lia) htakes) hstop ?_
      rw [Nat.add_assoc, hnext] at hrest
      rw [Nat.add_assoc, hnext, ← after_congr hcut.mode hcut.repairsPerRule]
      exact ih (by lia) hrest

end Cuts

/-- A course that is cut ends with the same turn, or with one that halts before its pass. -/
theorem Course.cut (h : e.Course rules options 1 looks p ts last reason)
    (hcut : Cuts σ options looks options' looks' k) :
    ∃ last' reason', e.Course rules options' 1 looks' p (ts.take k) last' reason' ∧
      (ts.length < k ∧ last' = last ∨ k ≤ ts.length ∧ ∃ t rest, ts.drop k ++ [last] = t :: rest ∧
        last' = .halted t.remaining reason') := by
  by_cases hk : ts.length < k
  · have hleads : e.Leads rules options (1 + 0) (looks + 0 * options.looks) p ts := by
      rw [Nat.zero_mul]
      exact h.leads
    have hleads' := hcut.leads (by lia) hleads
    rw [Nat.zero_mul] at hleads'
    rw [List.take_of_length_le (Nat.le_of_lt hk)]
    refine ⟨last, reason, ⟨hleads', ?_, h.stop⟩, .inl ⟨hk, rfl⟩⟩
    rw [← run_congr hcut.mode hcut.repairsPerRule]
    exact hcut.takes hk h.takes
  · have hlength : (ts.take k).length = k := List.length_take_of_le (by lia)
    have hsplit := h
    rw [← List.take_append_drop k ts, course_append_iff, hlength] at hsplit
    obtain ⟨hfirst, hrest⟩ := hsplit
    obtain ⟨t, rest, heq, htakes⟩ := hrest.first
    have hleads : e.Leads rules options (1 + 0) (looks + 0 * options.looks) p (ts.take k) := by
      rw [Nat.zero_mul]
      exact hfirst
    have hleads' := hcut.leads (by lia) hleads
    rw [Nat.zero_mul] at hleads'
    rw [run_congr hcut.mode hcut.repairsPerRule] at htakes
    obtain ⟨reason', hreason⟩ := Option.ne_none_iff_exists'.mp
      (hcut.halts ((p.run options' 1 (ts.take k)).analyzed (1 + k) t.remaining))
    refine ⟨_, reason', ⟨hleads', ?_, rfl⟩, .inr ⟨Nat.le_of_not_lt hk, t, rest, heq, rfl⟩⟩
    rw [hlength]
    exact .halted htakes.finds hreason

theorem Course.cut_halted (h : e.Course rules options 1 looks p ts last reason)
    (hcut : Cuts σ options looks options' looks' k)
    (hhalts : ∀ p : Progress σ, p.halt? options looks k ≠ none) :
    ∃ last' reason', e.Course rules options' 1 looks' p ts last' reason' ∧ ts.length ≤ k ∧
      p.run options 1 (ts ++ [last]) = p.run options' 1 (ts ++ [last']) := by
  have hlength := h.leads.length_le hhalts
  obtain ⟨last', reason', hcourse, hlast⟩ := h.cut hcut
  rw [List.take_of_length_le hlength] at hcourse
  refine ⟨last', reason', hcourse, hlength, ?_⟩
  rw [run_congr hcut.mode hcut.repairsPerRule, Progress.run_concat, Progress.run_concat]
  rcases hlast with ⟨-, rfl⟩ | ⟨hk, t, rest, heq, rfl⟩
  · rfl
  obtain rfl := Nat.le_antisymm hlength hk
  rw [List.drop_length, List.nil_append, List.cons.injEq] at heq
  obtain ⟨rfl, -⟩ := heq
  have htakes := h.takes
  generalize p.run options 1 ts = q at htakes
  cases htakes with
  | halted => rfl
  | passed hfinds hverdict => exact absurd hverdict (hhalts _)

theorem exists_sameWork (he : e.analyzer.Deterministic)
    (hcut : Cuts σ options j.signalReads options' j'.signalReads k)
    (hhalts : ∀ p : Progress σ, p.halt? options j.signalReads k ≠ none)
    (hbound : k < e.turnBound options') {r : RepairResult σ} {i : Journal}
    (h : (e.repairSource text file ids options).Yields j r i) :
    ∃ r' i', (e.repairSource text file ids options').Yields j' r' i' ∧ r.SameWork r' := by
  obtain ⟨rules, p, ts, last, hran, hr⟩ := exists_ran he h
  obtain ⟨last', reason', hcourse, hlength, hrun⟩ := hran.course.cut_halted hcut hhalts
  have hran' : e.Ran text file ids options' j'.signalReads rules p ts last' reason' :=
    ⟨hran.valid, hran.opening, hcourse, Nat.lt_of_le_of_lt hlength hbound⟩
  obtain ⟨r', i', hyields, hr'⟩ := hran'.yields he rfl
  rw [hrun] at hr
  have hdocument := hr.document.symm.trans hr'.document
  exact ⟨r', i', hyields, hr.filePath.symm.trans hr'.filePath, congrArg Tree.source hdocument.1,
    hdocument, hr.changed.symm.trans hr'.changed, hr.passes.symm.trans hr'.passes,
    hr.statistics.symm.trans hr'.statistics, hr.remaining.symm.trans hr'.remaining⟩

/-- A run has gone on from a state: it has made more passes, and applied more repairs. -/
def Progress.Extends (p p' : Progress σ) : Prop :=
  p.passes <+: p'.passes ∧ ∀ id, p.statistics.places id <+: p'.statistics.places id

theorem Progress.Extends.trans {p'' : Progress σ} (h : p.Extends p') (h' : p'.Extends p'') :
    p.Extends p'' :=
  ⟨h.1.trans h'.1, fun id => (h.2 id).trans (h'.2 id)⟩

theorem extends_after (t : TurnReport σ) (options : RepairOptions) (number : Nat) (p : Progress σ)
    (n : Nat) : p.Extends (t.after options number p n) := by
  constructor
  · rw [after_passes]
    exact List.prefix_append _ _
  · intro id
    rw [after_statistics]
    exact Statistics.places_enterAll _ _ id

theorem halted_extends (t : TurnReport σ) (reason : StopReason) (options : RepairOptions)
    (number : Nat) (p : Progress σ) (n : Nat) :
    (TurnReport.after (.halted t.remaining reason) options number p n).Extends
      (t.after options number p n) := by
  constructor
  · rw [after_passes, after_passes]
    exact List.prefix_append_right_inj _ |>.mpr List.nil_prefix
  · intro id
    rw [after_statistics, after_statistics]
    unfold TurnReport.entries
    rw [List.append_nil, Statistics.enterAll_append]
    exact Statistics.places_enterAll _ _ id

theorem run_extends (options : RepairOptions) (number : Nat) (p : Progress σ)
    (ts : List (TurnReport σ)) : p.Extends (p.run options number ts) := by
  induction ts generalizing p number with
  | nil => exact ⟨List.prefix_rfl, fun _ => List.prefix_rfl⟩
  | cons t rest ih => exact (extends_after t options number p 0).trans (ih _ _)

theorem verdict_congr {repairsPerRule passes passes' : Cap} {number : Nat}
    (h : passes.reached (number - 1) = passes'.reached (number - 1)) (p : Progress σ)
    (aborted : Bool) : p.verdict ⟨repairsPerRule, passes⟩ aborted number =
      p.verdict ⟨repairsPerRule, passes'⟩ aborted number := by
  unfold Progress.verdict
  rw [h]
  rfl

theorem verdict_aborted (p : Progress σ) (budget : Budget) (number : Nat) :
    p.verdict budget true number ≠ none := by
  unfold Progress.verdict
  split
  · exact fun heq => nomatch heq
  · exact fun heq => nomatch heq

theorem reached_eq {passes : Cap} (hpasses : passes.Allows k) (hi : i < k) :
    passes.reached (1 + i - 1) = (Cap.atMost k).reached (1 + i - 1) := by
  rw [Cap.not_reached hpasses (by lia)]
  exact (decide_eq_false (by lia)).symm

section Ends

variable (mode : RenderMode) (repairsPerRule : Cap) {passes : Cap} (looks looks' : Nat)

theorem halt?_within_at (k : Nat) (p : Progress σ) :
    p.halt? (.within mode ⟨repairsPerRule, .atMost k⟩) looks k ≠ none := by
  have hcap : (Cap.atMost k).reached (1 + k - 1) = true := decide_eq_true (by lia)
  exact verdict_ne_none hcap p

/-- Up to the shorter of two caps, the runs are the same. -/
theorem cuts_within (hpasses : passes.Allows k) :
    Cuts σ (.within mode ⟨repairsPerRule, passes⟩) looks
      (.within mode ⟨repairsPerRule, .atMost k⟩) looks' k where
  mode := rfl
  repairsPerRule := rfl
  before _ hi p := verdict_congr (reached_eq hpasses hi) p false
  halts := halt?_within_at mode repairsPerRule looks' k

theorem halt?_signalled (budget : Budget) (p : Progress σ) (k i : Nat) :
    p.halt? (.signalled mode budget (looks + k)) looks i =
      p.verdict budget (decide (k ≤ i)) (1 + i) := by
  have hlooks : (looks + k ≤ looks + i * 1) ↔ k ≤ i := by lia
  change p.verdict budget (decide (looks + k ≤ looks + i * 1) || false) (1 + i) = _
  rw [Bool.or_false, decide_eq_decide.mpr hlooks]

theorem halt?_signalled_before (hpasses : passes.Allows k) (hi : i < k) (p : Progress σ) :
    p.halt? (.signalled mode ⟨repairsPerRule, passes⟩ (looks + k)) looks i =
      p.halt? (.within mode ⟨repairsPerRule, .atMost k⟩) looks' i := by
  rw [halt?_signalled, decide_eq_false (by lia)]
  exact verdict_congr (reached_eq hpasses hi) p false

theorem halt?_signalled_at (budget : Budget) (k : Nat) (p : Progress σ) :
    p.halt? (.signalled mode budget (looks + k)) looks k ≠ none := by
  rw [halt?_signalled, decide_eq_true (Nat.le_refl k)]
  exact verdict_aborted p budget _

theorem cuts_signalled (hpasses : passes.Allows k) :
    Cuts σ (.signalled mode ⟨repairsPerRule, passes⟩ (looks + k)) looks
      (.within mode ⟨repairsPerRule, .atMost k⟩) looks' k where
  mode := rfl
  repairsPerRule := rfl
  before _ hi p := halt?_signalled_before mode repairsPerRule looks looks' hpasses hi p
  halts := halt?_within_at mode repairsPerRule looks' k

theorem cuts_by_signal (hpasses : passes.Allows k) :
    Cuts σ (.within mode ⟨repairsPerRule, .atMost k⟩) looks'
      (.signalled mode ⟨repairsPerRule, passes⟩ (looks + k)) looks k where
  mode := rfl
  repairsPerRule := rfl
  before _ hi p := (halt?_signalled_before mode repairsPerRule looks looks' hpasses hi p).symm
  halts := halt?_signalled_at mode looks ⟨repairsPerRule, passes⟩ k

end Ends

/-- The passes of a shorter run are the first ones of a longer run. -/
theorem exists_shorter (he : e.analyzer.Deterministic) {mode : RenderMode} {repairsPerRule : Cap}
    {passes : Cap} (hpasses : passes.Allows k) {r' : RepairResult σ}
    (h : (e.repairSource text file ids (.within mode ⟨repairsPerRule, passes⟩)).Yields j r' j')
    (i : Journal) : ∃ r i',
      (e.repairSource text file ids (.within mode ⟨repairsPerRule, .atMost k⟩)).Yields i r i' ∧
        r.passes <+: r'.passes ∧ ∀ id, r.statistics.places id <+: r'.statistics.places id := by
  obtain ⟨rules, p, ts, last, hran, hr'⟩ := exists_ran he h
  have hcut : Cuts σ (.within mode ⟨repairsPerRule, passes⟩) j.signalReads
      (.within mode ⟨repairsPerRule, .atMost k⟩) i.signalReads k :=
    cuts_within mode repairsPerRule _ _ hpasses
  obtain ⟨last', reason', hcourse, hlast⟩ := hran.course.cut hcut
  have hran' : e.Ran text file ids (.within mode ⟨repairsPerRule, .atMost k⟩) i.signalReads rules p
      (ts.take k) last' reason' :=
    ⟨hran.valid, hran.opening, hcourse, Nat.lt_succ_of_le (List.length_take_le k ts)⟩
  obtain ⟨r, i', hrun, hr⟩ := hran'.yields he rfl
  have hextends :
      (p.run (.within mode ⟨repairsPerRule, .atMost k⟩) 1 (ts.take k ++ [last'])).Extends
        (p.run (.within mode ⟨repairsPerRule, passes⟩) 1 (ts ++ [last])) := by
    rw [← run_congr hcut.mode hcut.repairsPerRule]
    rcases hlast with ⟨hlt, rfl⟩ | ⟨hle, t, rest, heq, rfl⟩
    · rw [List.take_of_length_le (Nat.le_of_lt hlt)]
      exact ⟨List.prefix_rfl, fun _ => List.prefix_rfl⟩
    · have hts : ts ++ [last] = ts.take k ++ [t] ++ rest := by
        rw [List.append_assoc, List.singleton_append, ← heq, ← List.append_assoc,
          List.take_append_drop]
      rw [hts, Progress.run_concat, Progress.run_append p 1 (ts.take k ++ [t]), Progress.run_concat]
      exact (halted_extends t reason' _ _ _ 0).trans (run_extends _ _ _ rest)
  refine ⟨r, i', hrun, ?_, fun id => ?_⟩
  · rw [← hr.passes, ← hr'.passes]
    exact hextends.1
  · rw [← hr.statistics, ← hr'.statistics]
    simp only [Progress.result, Statistics.places_setRemaining]
    exact hextends.2 id

/-- Interruption and caps only truncate. A run whose signal is set after `k` looks has done what the
run with `k` passes does, and of two runs with different caps the shorter one is the beginning of
the longer one. -/
theorem repairSource_truncates (he : e.analyzer.Deterministic) (text : Text) (file : String)
    (ids : List String) (mode : RenderMode) (repairsPerRule : Cap) (k : Nat) :
    (∀ {passes : Cap}, passes.Allows k → ∀ j i : Journal,
      (∀ {r j'},
        (e.repairSource text file ids (.signalled mode ⟨repairsPerRule, passes⟩
          (j.signalReads + k))).Yields j r j' → ∃ r' i',
        (e.repairSource text file ids (.within mode ⟨repairsPerRule, .atMost k⟩)).Yields i r' i' ∧
          r.SameWork r') ∧
      ∀ {r' i'},
        (e.repairSource text file ids (.within mode ⟨repairsPerRule, .atMost k⟩)).Yields i r' i' →
        ∃ r j', (e.repairSource text file ids (.signalled mode ⟨repairsPerRule, passes⟩
          (j.signalReads + k))).Yields j r j' ∧ r'.SameWork r) ∧
    ∀ {passes : Cap}, passes.Allows k → ∀ {j r' j'},
      (e.repairSource text file ids (.within mode ⟨repairsPerRule, passes⟩)).Yields j r' j' →
      ∀ i, ∃ r i',
        (e.repairSource text file ids (.within mode ⟨repairsPerRule, .atMost k⟩)).Yields i r i' ∧
          r.passes <+: r'.passes ∧ ∀ id, r.statistics.places id <+: r'.statistics.places id := by
  refine ⟨fun {passes} hpasses j i => ⟨fun h => ?_, fun h => ?_⟩,
    fun hpasses _ _ _ h => exists_shorter he hpasses h⟩
  · exact exists_sameWork he (cuts_signalled mode repairsPerRule _ _ hpasses)
      (halt?_signalled_at mode _ _ k) (Nat.lt_succ_self k) h
  · refine exists_sameWork he (cuts_by_signal mode repairsPerRule _ _ hpasses)
      (halt?_within_at mode repairsPerRule _ k) ?_ h
    have hpos := turnLimit_pos ⟨repairsPerRule, passes⟩ e.processors.entries.length
      (Number.twoTo 20)
    change k < turnLimit ⟨repairsPerRule, passes⟩ e.processors.entries.length + (j.signalReads + k)
    lia

theorem repairSource_truncates_renamer : ∃ r r' r'' j j' j'',
    (renamer.repairSource (.ofString "<A>x") "f" ["a", "b"]
      (.signalled .targeted ⟨.unbounded, .atMost 10⟩ 1)).Yields {} r j ∧
    (r.text, r.stopReason) = (.ofString "<B>x", .aborted) ∧
    (renamer.repairSource (.ofString "<A>x") "f" ["a", "b"]
      (.within .targeted ⟨.unbounded, .atMost 1⟩)).Yields {} r' j' ∧ r.SameWork r' ∧
    (renamer.repairSource (.ofString "<A>x") "f" ["a", "b"]
      (.within .targeted ⟨.unbounded, .atMost 10⟩)).Yields {} r'' j'' ∧
    r''.text = .ofString "<C>x" ∧ r'.passes <+: r''.passes := by
  obtain ⟨r, j, hrun, hend⟩ := Run.exists_yields (j := {})
    (x := renamer.repairSource (.ofString "<A>x") "f" ["a", "b"]
      (.signalled .targeted ⟨.unbounded, .atMost 10⟩ 1))
    (f := fun r => (r.text, r.stopReason)) (b := (.ofString "<B>x", .aborted)) (by decide +kernel)
  obtain ⟨r'', j'', hrun'', hend''⟩ := Run.exists_yields (j := {})
    (x := renamer.repairSource (.ofString "<A>x") "f" ["a", "b"]
      (.within .targeted ⟨.unbounded, .atMost 10⟩))
    (f := fun r => r.text) (b := .ofString "<C>x") (by decide +kernel)
  have hallows : (Cap.atMost 10).Allows 1 := by
    change 1 ≤ 10
    decide
  obtain ⟨hsignalled, hshorter⟩ := repairSource_truncates (e := renamer) (Catalog.deterministic _)
    (.ofString "<A>x") "f" ["a", "b"] .targeted .unbounded 1
  obtain ⟨r', j', hrun', hsame⟩ := (hsignalled hallows {} {}).1 hrun
  obtain ⟨r₁, j₁, hrun₁, hpasses, -⟩ := hshorter hallows hrun'' {}
  obtain rfl := hrun'.unique hrun₁
  exact ⟨r, r', r'', j, j', j'', hrun, hend, hrun', hsame, hrun'', hend'', hpasses⟩

end Engine
end LintRepair
