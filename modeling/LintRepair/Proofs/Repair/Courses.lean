import LintRepair.Proofs.Repair.Turns

/-!
# The course of a run

A run is the list of the reports of its turns, followed by the one that ends it. With checks that
find the same again, a run from any journal takes the course that its text, its rules and its
options give it, so two runs are compared through their courses alone.
-/
namespace LintRepair.Engine

variable {σ : Type} {e : Engine σ} {rules rules' : List String} {options options' : RepairOptions}
  {p p' q q' : Progress σ} {number number' looks looks' initial fuel fresh fresh' : Nat}
  {ts us : List (TurnReport σ)} {t last : TurnReport σ} {reason : StopReason} {j j' : Journal}

/-- States that differ in nothing but the number of the file. -/
structure Progress.Same (p p' : Progress σ) : Prop where
  document : p.document.Same p'.document
  statistics : p.statistics = p'.statistics
  passes : p.passes = p'.passes
  remaining : p.remaining = p'.remaining

theorem Progress.Same.symm (h : p.Same p') : p'.Same p :=
  ⟨h.document.symm, h.statistics.symm, h.passes.symm, h.remaining.symm⟩

theorem Progress.Same.after (h : p.Same p') (t : TurnReport σ) :
    (t.after options number p fresh).Same (t.after options number p' fresh') where
  document := by
    rw [after_document, after_document]
    exact TurnReport.document_same h.document t _ _
  statistics := by rw [after_statistics, after_statistics, h.statistics, h.document.1]
  passes := by rw [after_passes, after_passes, h.passes, h.statistics, h.document.1]
  remaining := by rw [after_remaining, after_remaining]

theorem Finds.same {d d' : Document σ} {vs : List Violation} (h : e.Finds d rules vs)
    (he : e.analyzer.Deterministic) (hd : d.Same d') : e.Finds d' rules vs := by
  obtain ⟨k, hk⟩ := h {}
  exact fun j => he.finds hd hk j

/-- A turn comes to the same report, by the look of it, wherever the file, the replies, the repairs
left and the verdict are the same. -/
theorem Takes.transfer_seen {e' : Engine σ} {view : Fate.View}
    (h : e.Takes rules options number looks p t) (hlanguage : e.language = e'.language)
    (hreply : ∀ v, view.see (reply ⟨e.language, e.processors⟩ p.document v) =
      view.see (reply ⟨e'.language, e'.processors⟩ p'.document v))
    (hfinds : ∀ vs, e.Finds p.document rules vs → e'.Finds p'.document rules' vs)
    (htree : p.document.tree = p'.document.tree) (hmode : options.mode = options'.mode)
    (hleft : ∀ id more, options.budget.repairsPerRule.reached (p.statistics.applied id + more) =
      options'.budget.repairsPerRule.reached (p'.statistics.applied id + more))
    (hverdict : (p.analyzed number t.remaining).verdict options.budget
        (options.interruptedAfter looks) number =
      (p'.analyzed number' t.remaining).verdict options'.budget
        (options'.interruptedAfter looks') number') :
    ∃ t', e'.Takes rules' options' number' looks' p' t' ∧ t.seen view = t'.seen view := by
  cases h with
  | halted hchecks hhalted => exact ⟨_, .halted (hfinds _ hchecks) (hverdict ▸ hhalted), rfl⟩
  | @passed remaining pass hchecks hopen hpass =>
    have hactive := withinBudget_congr (fun id => hleft id 0) remaining
    rw [withinBudget_analyzed, hactive, hmode] at hpass
    obtain ⟨pass', hpass', hseen⟩ : ∃ pass', Reports ⟨e'.language, e'.processors⟩ p'.document
        options'.budget options'.mode (withinBudget options'.budget p'.statistics remaining)
        (p'.analyzed number' remaining).statistics pass' ∧ pass.seen view = pass'.seen view := by
      refine hpass.transfer_seen hlanguage htree hreply fun id more => ?_
      rw [applied_analyzed, applied_analyzed]
      exact hleft id more
    refine ⟨.passed remaining pass', .passed (hfinds _ hchecks) (hverdict ▸ hopen) ?_, ?_⟩
    · rwa [withinBudget_analyzed]
    · rw [TurnReport.seen, hseen, TurnReport.seen]

theorem Takes.transfer (h : e.Takes rules options number looks p t)
    (hfinds : ∀ vs, e.Finds p.document rules vs → e.Finds p'.document rules' vs)
    (hd : p.document.Same p'.document) (hmode : options.mode = options'.mode)
    (hleft : ∀ id more, options.budget.repairsPerRule.reached (p.statistics.applied id + more) =
      options'.budget.repairsPerRule.reached (p'.statistics.applied id + more))
    (hverdict : (p.analyzed number t.remaining).verdict options.budget
        (options.interruptedAfter looks) number =
      (p'.analyzed number' t.remaining).verdict options'.budget
        (options'.interruptedAfter looks') number') :
    e.Takes rules' options' number' looks' p' t := by
  obtain ⟨t', ht', hseen⟩ : ∃ t', e.Takes rules' options' number' looks' p' t' ∧
      t.seen .plain = t'.seen .plain :=
    h.transfer_seen rfl (fun v => congrArg _ (reply_congr hd _ v)) hfinds hd.1 hmode hleft hverdict
  rw [TurnReport.seen_plain, TurnReport.seen_plain] at hseen
  rwa [hseen]

theorem Takes.same (h : e.Takes rules options number looks p t) (he : e.analyzer.Deterministic)
    (hp : p.Same p') : e.Takes rules options number looks p' t := by
  refine h.transfer (fun vs hvs => hvs.same he hp.document) hp.document rfl ?_ ?_
  · rw [hp.statistics]
    exact fun _ _ => rfl
  · rw [Progress.verdict, Progress.verdict, Progress.analyzed, Progress.analyzed, hp.statistics]

/-- The state after turns with these reports. The numbers of the files are left open. -/
def Progress.run (options : RepairOptions) : Nat → Progress σ → List (TurnReport σ) → Progress σ
  | _, p, [] => p
  | number, p, t :: ts => run options (number + 1) (t.after options number p 0) ts

theorem Progress.run_append (p : Progress σ) (number : Nat) (ts us : List (TurnReport σ)) :
    p.run options number (ts ++ us) =
      (p.run options number ts).run options (number + ts.length) us := by
  induction ts generalizing p number with
  | nil => rfl
  | cons t rest ih =>
    rw [List.cons_append, run, ih, run, List.length_cons, Nat.add_right_comm, ← Nat.add_assoc]

theorem Progress.run_concat (p : Progress σ) (number : Nat) (ts : List (TurnReport σ))
    (last : TurnReport σ) : p.run options number (ts ++ [last]) =
      last.after options (number + ts.length) (p.run options number ts) 0 :=
  run_append ..

/-- Turns with these reports follow each other from this state on, and none of them ends the run. -/
inductive Leads (e : Engine σ) (rules : List String) (options : RepairOptions) :
    Nat → Nat → Progress σ → List (TurnReport σ) → Prop where
  | nil (number looks : Nat) (p : Progress σ) : Leads e rules options number looks p []
  | cons {number looks : Nat} {p : Progress σ} {t : TurnReport σ} {ts : List (TurnReport σ)}
      (htakes : e.Takes rules options number looks p t) (hstop : t.stop? = none)
      (hrest : Leads e rules options (number + 1) (looks + options.looks)
        (t.after options number p 0) ts) :
      Leads e rules options number looks p (t :: ts)

/-- A run from this state takes turns with these reports, and the last one ends it. -/
structure Course (e : Engine σ) (rules : List String) (options : RepairOptions)
    (number looks : Nat) (p : Progress σ) (ts : List (TurnReport σ)) (last : TurnReport σ)
    (reason : StopReason) : Prop where
  leads : e.Leads rules options number looks p ts
  takes : e.Takes rules options (number + ts.length) (looks + ts.length * options.looks)
    (p.run options number ts) last
  stop : last.stop? = some reason

theorem Leads.append_iff : e.Leads rules options number looks p (ts ++ us) ↔
    e.Leads rules options number looks p ts ∧ e.Leads rules options (number + ts.length)
      (looks + ts.length * options.looks) (p.run options number ts) us := by
  induction ts generalizing number looks p with
  | nil => simp [Progress.run, Leads.nil]
  | cons t rest ih =>
    have hnumber : number + (t :: rest).length = number + 1 + rest.length := by
      rw [List.length_cons]
      lia
    have hlooks : looks + (t :: rest).length * options.looks =
        looks + options.looks + rest.length * options.looks := by
      rw [List.length_cons, Nat.succ_mul]
      lia
    rw [List.cons_append, hnumber, hlooks, Progress.run]
    constructor
    · intro h
      cases h with
      | cons htakes hstop hrest =>
        exact ⟨.cons htakes hstop (ih.mp hrest).1, (ih.mp hrest).2⟩
    · rintro ⟨h, hlater⟩
      cases h with
      | cons htakes hstop hrest => exact .cons htakes hstop (ih.mpr ⟨hrest, hlater⟩)

theorem course_nil_iff : e.Course rules options number looks p [] last reason ↔
    e.Takes rules options number looks p last ∧ last.stop? = some reason := by
  constructor
  · intro h
    have htakes := h.takes
    rw [List.length_nil, Nat.zero_mul] at htakes
    exact ⟨htakes, h.stop⟩
  · rintro ⟨htakes, hstop⟩
    refine ⟨.nil _ _ _, ?_, hstop⟩
    rw [List.length_nil, Nat.zero_mul]
    exact htakes

theorem course_cons_iff : e.Course rules options number looks p (t :: ts) last reason ↔
    e.Takes rules options number looks p t ∧ t.stop? = none ∧
      e.Course rules options (number + 1) (looks + options.looks) (t.after options number p 0) ts
        last reason := by
  have hnumber : number + (t :: ts).length = number + 1 + ts.length := by
    rw [List.length_cons]
    lia
  have hlooks : looks + (t :: ts).length * options.looks =
      looks + options.looks + ts.length * options.looks := by
    rw [List.length_cons, Nat.succ_mul]
    lia
  constructor
  · intro h
    have hlast := h.takes
    rw [hnumber, hlooks] at hlast
    cases h.leads with
    | cons htakes hstop hrest => exact ⟨htakes, hstop, hrest, hlast, h.stop⟩
  · rintro ⟨htakes, hstop, h⟩
    refine ⟨.cons htakes hstop h.leads, ?_, h.stop⟩
    rw [hnumber, hlooks]
    exact h.takes

theorem course_append_iff : e.Course rules options number looks p (ts ++ us) last reason ↔
    e.Leads rules options number looks p ts ∧ e.Course rules options (number + ts.length)
      (looks + ts.length * options.looks) (p.run options number ts) us last reason := by
  have hnumber : number + (ts ++ us).length = number + ts.length + us.length := by
    rw [List.length_append, Nat.add_assoc]
  have hlooks : looks + (ts ++ us).length * options.looks =
      looks + ts.length * options.looks + us.length * options.looks := by
    rw [List.length_append, Nat.add_mul, Nat.add_assoc]
  constructor
  · rintro ⟨hleads, htakes, hstop⟩
    rw [hnumber, hlooks, Progress.run_append] at htakes
    obtain ⟨hleads, hlater⟩ := Leads.append_iff.mp hleads
    exact ⟨hleads, hlater, htakes, hstop⟩
  · rintro ⟨hleads, hlater, htakes, hstop⟩
    refine ⟨Leads.append_iff.mpr ⟨hleads, hlater⟩, ?_, hstop⟩
    rw [hnumber, hlooks, Progress.run_append]
    exact htakes

/-- A run takes no more turns than there are before one that ends it in any case. -/
theorem Leads.length_le {k : Nat} (h : e.Leads rules options 1 looks p ts)
    (hhalts : ∀ p : Progress σ, p.verdict options.budget
      (options.interruptedAfter (looks + k * options.looks)) (1 + k) ≠ none) : ts.length ≤ k := by
  by_contra hlong
  have hk : (ts.take k).length = k := List.length_take_of_le (by lia)
  rw [← List.take_append_drop k ts, Leads.append_iff, hk] at h
  cases hdrop : ts.drop k with
  | nil =>
    have hle := List.drop_eq_nil_iff.mp hdrop
    lia
  | cons t rest =>
    rw [hdrop] at h
    cases h.2 with
    | cons htakes hstop hrest =>
      cases htakes with
      | halted => cases hstop
      | passed hfinds hverdict => exact hhalts _ hverdict

theorem Course.first (h : e.Course rules options number looks p ts last reason) :
    ∃ t rest, ts ++ [last] = t :: rest ∧ e.Takes rules options number looks p t := by
  cases ts with
  | nil => exact ⟨last, [], rfl, (course_nil_iff.mp h).1⟩
  | cons t rest => exact ⟨t, rest ++ [last], rfl, (course_cons_iff.mp h).1⟩

theorem Course.document_eq (h : e.Course rules options number looks p ts last reason) :
    (p.run options number (ts ++ [last])).document = (p.run options number ts).document := by
  rw [Progress.run_concat, after_document, TurnReport.document_of_stop h.stop]

theorem releaseUnless_yields (initial : Nat) (d : Document σ) (j : Journal) :
    ∃ j', (releaseUnless initial d).Yields j () j' ∧ j'.signalReads = j.signalReads := by
  unfold releaseUnless
  split
  · exact ⟨j, .pure _ _, rfl⟩
  · exact ⟨_, rfl, rfl⟩

/-- The loop of a run that comes to an end has taken a course. -/
theorem exists_course (he : e.analyzer.Deterministic) (hq : q.Same p)
    (h : (e.turns rules options initial fuel number p).Yields j (p', reason) j') :
    ∃ ts last, e.Course rules options number j.signalReads q ts last reason ∧ ts.length < fuel ∧
      (q.run options number (ts ++ [last])).Same p' := by
  induction fuel generalizing number p q j with
  | zero => exact absurd h Run.not_yields_bind_throw
  | succ fuel ih =>
    rw [turns, Run.yields_bind] at h
    obtain ⟨⟨next, stop⟩, k, hturn, h⟩ := h
    rw [Run.yields_tryCatch fun _ _ _ _ => Run.not_yields_bind_throw] at hturn
    obtain ⟨t, fresh, htakes, rfl, rfl, hreads⟩ := exists_takes he hturn
    have htakes' : e.Takes rules options number j.signalReads q t := htakes.same he hq.symm
    cases hstop : t.stop? with
    | some reason =>
      rw [hstop] at h
      cases (Run.yields_pure.mp h).1
      exact ⟨[], t, course_nil_iff.mpr ⟨htakes', hstop⟩, Nat.succ_pos fuel, hq.after t⟩
    | none =>
      rw [hstop] at h hreads
      simp only [Run.yields_bind] at h
      obtain ⟨⟨⟩, k', hrelease, h⟩ := h
      obtain ⟨k'', hrelease', hsilent⟩ := releaseUnless_yields initial p.document k
      obtain rfl := hrelease.unique_journal hrelease'
      have hnext : (t.after options number q 0).Same (t.after options number p fresh) := hq.after t
      obtain ⟨ts, last, hcourse, hlength, hsame⟩ := ih hnext h
      rw [hsilent, hreads rfl] at hcourse
      exact ⟨t :: ts, last, course_cons_iff.mpr ⟨htakes', hstop, hcourse⟩,
        Nat.succ_lt_succ hlength, hsame⟩

theorem Course.turns_yields (h : e.Course rules options number looks q ts last reason)
    (he : e.analyzer.Deterministic) (hq : q.Same p) (initial : Nat) (hj : j.signalReads = looks)
    (hfuel : ts.length < fuel) :
    ∃ p' j', (e.turns rules options initial fuel number p).Yields j (p', reason) j' ∧
      (q.run options number (ts ++ [last])).Same p' := by
  induction ts generalizing number looks q p j fuel with
  | nil =>
    obtain ⟨fuel, rfl⟩ := Nat.exists_eq_succ_of_ne_zero (Nat.ne_of_gt hfuel)
    obtain ⟨htakes, hstop⟩ := course_nil_iff.mp h
    obtain ⟨fresh, k, hturn⟩ := (htakes.same he hq).yields he hj
    rw [hstop] at hturn
    refine ⟨_, k, .bind ((Run.yields_tryCatch ?_).mpr hturn) (.pure _ _), hq.after last⟩
    exact fun _ _ _ _ => Run.not_yields_bind_throw
  | cons t rest ih =>
    obtain ⟨fuel, rfl⟩ := Nat.exists_eq_succ_of_ne_zero (Nat.ne_of_gt (Nat.zero_lt_of_lt hfuel))
    obtain ⟨htakes, hstop, hrest⟩ := course_cons_iff.mp h
    obtain ⟨fresh, k, hturn⟩ := (htakes.same he hq).yields he hj
    rw [hstop] at hturn
    obtain ⟨-, -, -, -, -, hreads⟩ := exists_takes he hturn
    obtain ⟨k', hrelease, hsilent⟩ := releaseUnless_yields initial p.document k
    have hlooks : k'.signalReads = looks + options.looks := by rw [hsilent, hreads rfl, hj]
    have hnext : (t.after options number q 0).Same (t.after options number p fresh) := hq.after t
    obtain ⟨p', j', hturns, hsame⟩ := ih hrest hnext hlooks (Nat.lt_of_succ_lt_succ hfuel)
    refine ⟨p', j', .bind ((Run.yields_tryCatch ?_).mpr hturn) (hrelease.bind hturns), hsame⟩
    exact fun _ _ _ _ => Run.not_yields_bind_throw

/-- The result of a run that ends in this state. -/
def Progress.result (p : Progress σ) (file : String) (text : Text) (reason : StopReason) :
    RepairResult σ where
  filePath := file
  document := p.document
  changed := p.document.tree.source ≠ text
  stopReason := reason
  passes := p.passes
  statistics := p.statistics.setRemaining p.remaining
  remaining := p.remaining

theorem turnLimit_pos (budget : Budget) (rules patience : Nat) :
    0 < turnLimit budget rules patience := by
  unfold turnLimit
  split <;> lia

/-- More turns than a run takes. -/
def turnBound {τ : Type} (e : Engine σ τ) (options : RepairOptions) : Nat :=
  turnLimit options.budget e.processors.entries.length options.patience + silentLooks options

/-- A run over a text that begins in this state and takes this course. -/
structure Ran (e : Engine σ) (text : Text) (file : String) (ids : List String)
    (options : RepairOptions) (looks : Nat) (rules : List String) (p : Progress σ)
    (ts : List (TurnReport σ)) (last : TurnReport σ) (reason : StopReason) : Prop where
  valid : e.validateRules ids = .ok rules
  opening : ∃ template parsed, e.language.parse text file = .ok (template, parsed) ∧
    p = start ⟨.ofTemplate file text template, some parsed, 0⟩ rules
  course : e.Course rules options 1 looks p ts last reason
  bound : ts.length < e.turnBound options

/-- Results that differ in nothing but the number of the file. -/
structure SameResult (r r' : RepairResult σ) : Prop where
  filePath : r.filePath = r'.filePath
  document : r.document.Same r'.document
  changed : r.changed = r'.changed
  stopReason : r.stopReason = r'.stopReason
  passes : r.passes = r'.passes
  statistics : r.statistics = r'.statistics
  remaining : r.remaining = r'.remaining

theorem Progress.Same.result (h : p.Same p') (file : String) (text : Text) (reason : StopReason) :
    SameResult (p.result file text reason) (p'.result file text reason) where
  filePath := rfl
  document := h.document
  changed := by
    unfold Progress.result
    simp only [h.document.1]
  stopReason := rfl
  passes := h.passes
  statistics := by
    unfold Progress.result
    rw [h.statistics, h.remaining]
  remaining := h.remaining

namespace SameResult

variable {file : String} {text : Text} {r : RepairResult σ}

theorem changed_iff (hr : SameResult (p.result file text reason) r) :
    r.changed = true ↔ r.text ≠ text := by
  rw [← hr.changed, RepairResult.text, ← hr.document.1]
  exact decide_eq_true_iff

theorem books (hr : SameResult ((p.run options 1 (ts ++ [last])).result file text reason) r) :
    r.statistics = ((p.run options 1 ts).statistics.enterAll (last.entries options (1 + ts.length)
      (p.run options 1 ts).document.tree.filePath)).setRemaining last.remaining := by
  rw [← hr.statistics, Progress.result, Progress.run_concat, after_statistics, after_remaining]

theorem passes_eq (hr : SameResult ((p.run options 1 (ts ++ [last])).result file text reason) r) :
    r.passes = (p.run options 1 ts).passes ++ last.summaries options (1 + ts.length)
      (p.run options 1 ts).document.tree.filePath (p.run options 1 ts).statistics := by
  rw [← hr.passes, Progress.result, Progress.run_concat, after_passes]

end SameResult

theorem read_yields_iff {language : Language σ} {text : Text} {file : String} {d : Document σ} :
    (language.read text file).Yields j d j' ↔ ∃ template parsed,
      language.parse text file = .ok (template, parsed) ∧
        d = ⟨.ofTemplate file text template, some parsed, j.parsed⟩ ∧
          { j with parsed := j.parsed + 1 } = j' := by
  unfold Language.read
  cases language.parse text file with
  | error f =>
    refine iff_of_false (fun h => nomatch h) ?_
    rintro ⟨template, parsed, h, -⟩
    cases h
  | ok x =>
    obtain ⟨template, parsed⟩ := x
    change ((.ok ⟨.ofTemplate file text template, some parsed, j.parsed⟩,
      { j with parsed := j.parsed + 1 }) : Except Fault (Document σ) × Journal) = (.ok d, j') ↔ _
    constructor
    · rintro h
      cases h
      exact ⟨template, parsed, rfl, rfl, rfl⟩
    · rintro ⟨_, _, h, rfl, rfl⟩
      cases h
      rfl

theorem repair_of_repairSource {text : Text} {file : String} {ids : List String}
    {r : RepairResult σ} (h : (e.repairSource text file ids options).Yields j r j') :
    ∃ rules d k k', e.validateRules ids = .ok rules ∧ (e.language.read text file).Yields j d k ∧
      (e.repair d rules options).Yields k r k' := by
  unfold repairSource at h
  simp only [Run.yields_bind, Run.yields_lift] at h
  obtain ⟨rules, _, ⟨hrules, rfl⟩, d, k, hread, result, k', hrepair, h⟩ := h
  have hresult : result = r := by
    split at h
    · rw [Run.yields_bind] at h
      obtain ⟨_, _, _, h⟩ := h
      exact (Run.yields_pure.mp h).1
    · exact (Run.yields_pure.mp h).1
  subst hresult
  rw [Run.yields_tryCatch fun _ _ _ _ => Run.not_yields_bind_throw] at hrepair
  exact ⟨rules, d, k, k', hrules, hread, hrepair⟩

theorem repairSource_of_repair {text : Text} {file : String} {ids : List String} {d : Document σ}
    {r : RepairResult σ} {k k' : Journal} (hrules : e.validateRules ids = .ok rules)
    (hread : (e.language.read text file).Yields j d k)
    (hrepair : (e.repair d rules options).Yields k r k') :
    ∃ j', (e.repairSource text file ids options).Yields j r j' := by
  obtain ⟨j', hlast⟩ : ∃ j', (if r.document.number ≠ d.number then (do
      Run.release d.number
      return r) else return r : Run (RepairResult σ)).Yields k' r j' := by
    split
    · exact ⟨_, .bind (a := ()) rfl (.pure _ _)⟩
    · exact ⟨k', .pure _ _⟩
  refine ⟨j', .bind (Run.yields_lift.mpr ⟨hrules, rfl⟩)
    (.bind hread (.bind ((Run.yields_tryCatch ?_).mpr hrepair) hlast))⟩
  exact fun _ _ _ _ => Run.not_yields_bind_throw

theorem exists_ran {text : Text} {file : String} {ids : List String} {r : RepairResult σ}
    (he : e.analyzer.Deterministic) (h : (e.repairSource text file ids options).Yields j r j') :
    ∃ rules p ts last, e.Ran text file ids options j.signalReads rules p ts last r.stopReason ∧
      SameResult ((p.run options 1 (ts ++ [last])).result file text r.stopReason) r := by
  obtain ⟨rules, d, k, k', hrules, hread, hrepair⟩ := repair_of_repairSource h
  obtain ⟨template, parsed, hparse, rfl, rfl⟩ := read_yields_iff.mp hread
  unfold repair at hrepair
  simp only [Run.yields_bind, Run.yields_lift, Run.yields_pure, validateRules_again hrules]
    at hrepair
  obtain ⟨_, _, ⟨heq, rfl⟩, ⟨p, reason⟩, k'', hturns, rfl, rfl⟩ := hrepair
  obtain rfl := Except.ok.inj heq
  have hstart : (start ⟨.ofTemplate file text template, some parsed, 0⟩ rules).Same
      (start ⟨.ofTemplate file text template, some parsed, j.parsed⟩ rules) :=
    ⟨⟨rfl, rfl⟩, rfl, rfl, rfl⟩
  obtain ⟨ts, last, hcourse, hlength, hsame⟩ := exists_course he hstart hturns
  exact ⟨rules, _, ts, last, ⟨hrules, ⟨template, parsed, hparse, rfl⟩, hcourse, hlength⟩,
    hsame.result ..⟩

theorem Ran.ends {text : Text} {file : String} {ids : List String} {r : RepairResult σ}
    (h : e.Ran text file ids options looks rules p ts last reason)
    (hr : SameResult ((p.run options 1 (ts ++ [last])).result file text reason) r) :
    (p.run options 1 ts).document.Same r.document ∧ last.remaining = r.remaining ∧
      reason = r.stopReason := by
  refine ⟨?_, ?_, hr.stopReason⟩
  · have hdocument := hr.document
    rwa [Progress.result, h.course.document_eq] at hdocument
  · have hremaining := hr.remaining
    rwa [Progress.result, Progress.run_concat, after_remaining] at hremaining

theorem Ran.yields {text : Text} {file : String} {ids : List String}
    (h : e.Ran text file ids options looks rules p ts last reason) (he : e.analyzer.Deterministic)
    (hj : j.signalReads = looks) : ∃ r j', (e.repairSource text file ids options).Yields j r j' ∧
      SameResult ((p.run options 1 (ts ++ [last])).result file text reason) r := by
  obtain ⟨template, parsed, hparse, rfl⟩ := h.opening
  have hstart : (start ⟨.ofTemplate file text template, some parsed, 0⟩ rules).Same
      (start ⟨.ofTemplate file text template, some parsed, j.parsed⟩ rules) :=
    ⟨⟨rfl, rfl⟩, rfl, rfl, rfl⟩
  have hread : (e.language.read text file).Yields j
      ⟨.ofTemplate file text template, some parsed, j.parsed⟩ { j with parsed := j.parsed + 1 } :=
    read_yields_iff.mpr ⟨template, parsed, hparse, rfl, rfl⟩
  obtain ⟨p', k, hturns, hsame⟩ := h.course.turns_yields he hstart j.parsed
    (j := { j with parsed := j.parsed + 1 }) hj h.bound
  have hrepair :
      (e.repair ⟨.ofTemplate file text template, some parsed, j.parsed⟩ rules options).Yields
      { j with parsed := j.parsed + 1 } (p'.result file text reason) k :=
    .bind (Run.yields_lift.mpr ⟨validateRules_again h.valid, rfl⟩) (.bind hturns (.pure _ _))
  obtain ⟨j', hj⟩ := repairSource_of_repair h.valid hread hrepair
  exact ⟨p'.result file text reason, j', hj, hsame.result ..⟩

end LintRepair.Engine
