import LintRepair.Marks.Script
import LintRepair.Proofs.Repair.Courses
import LintRepair.Proofs.Rules.Listing

/-!
# What a result tells

However a run ends, its result speaks of the text that it returns: the tree is that text as it was
read, the violations are those of its checks, and the counts are theirs.
-/
namespace LintRepair.Engine

variable {σ : Type} {e : Engine σ} {rules ids : List String} {options : RepairOptions}
  {p : Progress σ} {number looks : Nat} {ts : List (TurnReport σ)} {t last : TurnReport σ}
  {reason : StopReason} {text : Text} {file : String} {j j' : Journal}

theorem Takes.clean_iff (h : e.Takes rules options number looks p t)
    (hstop : t.stop? = some reason) :
    reason = .clean ↔ t.remaining = [] := by
  cases h with
  | @halted remaining reason' hfinds hverdict =>
    cases hstop
    unfold Progress.verdict at hverdict
    by_cases hclean : remaining = []
    · rw [if_pos (show (p.analyzed number remaining).remaining = [] from hclean)] at hverdict
      cases hverdict
      exact iff_of_true rfl hclean
    · rw [if_neg (show ¬ (p.analyzed number remaining).remaining = [] from hclean)] at hverdict
      refine iff_of_false ?_ hclean
      rintro rfl
      split at hverdict
      · cases hverdict
      split at hverdict
      · cases hverdict
      split at hverdict
      · cases hverdict
      · cases hverdict
  | @passed remaining pass hfinds hverdict hpass =>
    refine iff_of_false ?_ (ne_nil_of_verdict hverdict)
    rintro rfl
    rcases TurnReport.stop?_passed hstop with ⟨h, -⟩ | ⟨h, -⟩
    · cases h
    · cases h

/-- A file is its text as it was read. -/
def Fresh {τ : Type} (e : Engine σ τ) (file : String) (d : Document σ) : Prop :=
  ∃ template parsed, e.language.parse d.tree.source file = .ok (template, parsed) ∧
    d.tree = .ofTemplate file d.tree.source template ∧ d.parsed = some parsed

theorem fresh_of_batch {t : Tree} {sets : List EditSet} {mode : RenderMode} {x : Tree × σ}
    (h : e.language.batch t sets mode = .ok x) (number : Nat) :
    e.Fresh t.filePath ⟨x.1, some x.2, number⟩ := by
  obtain ⟨text, template, parsed, hparse, rfl⟩ := Language.read_of_batch h
  exact ⟨template, parsed, hparse, rfl, rfl⟩

theorem Fresh.same {d d' : Document σ} (h : e.Fresh file d) (hd : d.Same d') : e.Fresh file d' := by
  unfold Fresh
  rw [← hd.1, ← hd.2]
  exact h

theorem Fresh.after (hp : e.Fresh file p.document)
    (h : e.Takes rules options number looks p t) :
    e.Fresh file (t.after options number p 0).document := by
  rw [after_document]
  cases h with
  | halted => exact hp
  | @passed remaining pass hfinds hverdict hpass =>
    have hfile : file = p.document.tree.filePath := by
      obtain ⟨template, parsed, -, htree, -⟩ := hp
      rw [htree]
      rfl
    have hbatch := hpass.batch
    rw [TurnReport.document, PassReport.result]
    split
    · next next hnext =>
      split at hnext
      · cases hnext
      cases hr : pass.batch with
      | error f =>
        rw [hr] at hnext
        cases hnext
      | ok x =>
        rw [hr] at hbatch hnext
        cases hnext
        rw [hfile]
        exact fresh_of_batch (e := e) hbatch 0
    · exact hp

theorem Leads.fresh (h : e.Leads rules options number looks p ts) (hp : e.Fresh file p.document) :
    e.Fresh file (p.run options number ts).document := by
  induction h with
  | nil => exact hp
  | cons htakes hstop hrest ih => exact ih (hp.after htakes)

theorem Leads.distinct (h : e.Leads rules options number looks p ts)
    (hp : p.statistics.Distinct) : (p.run options number ts).statistics.Distinct := by
  induction h with
  | nil => exact hp
  | cons htakes hstop hrest ih =>
    refine ih ?_
    rw [after_statistics]
    exact hp.enterAll _

theorem Ran.fresh_of_leads {ts₀ : List (TurnReport σ)}
    (h : e.Ran text file ids options looks rules p ts last reason)
    (hleads : e.Leads rules options 1 looks p ts₀) :
    e.Fresh file (p.run options 1 ts₀).document := by
  obtain ⟨template, parsed, hparse, rfl⟩ := h.opening
  exact hleads.fresh ⟨template, parsed, hparse, rfl, rfl⟩

theorem Ran.fresh (h : e.Ran text file ids options looks rules p ts last reason) :
    e.Fresh file (p.run options 1 ts).document := h.fresh_of_leads h.course.leads

theorem Ran.distinct (h : e.Ran text file ids options looks rules p ts last reason) :
    (p.run options 1 ts).statistics.Distinct := by
  obtain ⟨template, parsed, hparse, rfl⟩ := h.opening
  exact h.course.leads.distinct (Statistics.Distinct.track (s := {}) List.nodup_nil rules)

/-- What a result tells of the text that it returns. -/
structure Describes (e : Engine σ) (text : Text) (file : String) (ids : List String)
    (r : RepairResult σ) : Prop where
  filePath : r.filePath = file
  fresh : ∃ template parsed, e.language.parse r.text file = .ok (template, parsed) ∧
    r.document.tree = .ofTemplate file r.text template ∧ r.document.parsed = some parsed
  unedited : ∀ h node, r.document.tree.node? h = some node → node.dirty = false
  remaining : ∀ j, ∃ j', (e.analyzeSource r.text file ids).Yields j r.remaining j'
  clean_iff : r.stopReason = .clean ↔ r.remaining = []
  /-- Every entry of the statistics counts the remaining violations of its rule. -/
  counted : ∀ s ∈ r.statistics.rules,
    s.counts.remaining = r.remaining.countP fun v => v.ruleId = s.ruleId
  listed : ∀ v ∈ r.remaining, ∃ s ∈ r.statistics.rules, s.ruleId = v.ruleId
  changed_iff : r.changed = true ↔ r.text ≠ text

/-- The books count every violation that is left at its rule. -/
theorem counted_of_distinct {s : Statistics} (hs : s.Distinct) (vs : List Violation) :
    (∀ r ∈ (s.setRemaining vs).rules,
      r.counts.remaining = vs.countP fun v => v.ruleId = r.ruleId) ∧
    ∀ v ∈ vs, ∃ r ∈ (s.setRemaining vs).rules, r.ruleId = v.ruleId := by
  have hcount := s.remaining_setRemaining vs
  constructor
  · intro r hr
    have hget := (hs.setRemaining vs).get?_eq_some_iff.mpr ⟨hr, rfl⟩
    rw [← hcount r.ruleId, Statistics.remaining, hget]
  · intro v hv
    have hpos : 0 < vs.countP fun w => w.ruleId = v.ruleId :=
      List.countP_pos_iff.mpr ⟨v, hv, decide_eq_true rfl⟩
    rw [← hcount v.ruleId, Statistics.remaining] at hpos
    cases hget : (s.setRemaining vs).get? v.ruleId with
    | none =>
      rw [hget] at hpos
      exact absurd hpos (Nat.lt_irrefl 0)
    | some r => exact ⟨r, (hs.setRemaining vs).get?_eq_some_iff.mp hget⟩

theorem Finds.analyzeSource {d : Document σ} {vs : List Violation} (h : e.Finds d rules vs)
    (he : e.analyzer.Deterministic) (hrules : e.validateRules ids = .ok rules)
    (hd : e.Fresh file d) (j : Journal) :
    ∃ j', (e.analyzeSource d.tree.source file ids).Yields j vs j' := by
  obtain ⟨template, parsed, hparse, htree, hparsed⟩ := hd
  have hsame : d.Same ⟨.ofTemplate file d.tree.source template, some parsed, j.parsed⟩ :=
    ⟨htree, hparsed⟩
  obtain ⟨k, hchecks⟩ := h.same he hsame { j with parsed := j.parsed + 1 }
  refine ⟨_, .bind (Run.yields_lift.mpr ⟨validateAnalysisRules_eq hrules, rfl⟩) (.bind
    (read_yields_iff.mpr ⟨template, parsed, hparse, rfl, rfl⟩) (.bind ((Run.yields_tryCatch ?_).mpr
      (hchecks.bind (.bind (a := ()) rfl (.pure _ _)))) (.pure _ _)))⟩
  exact fun _ _ _ _ => Run.not_yields_bind_throw

/-- Whatever ends a run, its result tells the truth about the text that it returns. -/
theorem repairSource_describes (he : e.analyzer.Deterministic) {r : RepairResult σ}
    (h : (e.repairSource text file ids options).Yields j r j') : e.Describes text file ids r := by
  obtain ⟨rules, p, ts, last, hran, hsame⟩ := exists_ran he h
  have hlast := hran.course.takes
  have hstop := hran.course.stop
  obtain ⟨hdocument, hremaining, -⟩ := hran.ends hsame
  have hfresh := hran.fresh
  have hcounted := counted_of_distinct (hran.distinct.enterAll
    (last.entries options (1 + ts.length) (p.run options 1 ts).document.tree.filePath))
    last.remaining
  rw [← hsame.books, hremaining] at hcounted
  obtain ⟨template, parsed, hparse, htree, hparsed⟩ := hfresh.same hdocument
  refine ⟨hsame.filePath.symm, ⟨template, parsed, hparse, htree, hparsed⟩, ?_, ?_, ?_,
    hcounted.1, hcounted.2, hsame.changed_iff⟩
  · intro h node hnode
    rw [htree] at hnode
    exact Tree.dirty_ofTemplate hnode
  · intro j
    rw [← hremaining]
    exact (hlast.finds.same he hdocument).analyzeSource he hran.valid
      (hfresh.same hdocument) j
  · rw [← hremaining]
    exact hlast.clean_iff hstop

/-- Rule `a` flags the marks of kind A, and rule `b` those of kind B. -/
def markRules : Catalog Marks.MarksFile :=
  .ofList [("a", Marks.ScriptedCheck.toCheck { id := "a", name := "a", kinds := some ["A"] }),
    ("b", Marks.ScriptedCheck.toCheck { id := "b", name := "b", kinds := some ["B"] })]

/-- Replaces a flagged mark. -/
def relabel (ruleId code : String) : Processor Marks.MarksFile where
  ruleId
  name := ruleId
  apply context :=
    match Marks.fragment (.ofString code) with
    | .ok subtree => .ok (.applied [.replace context.node subtree])
    | .error f => .error (.fault f)

/-- Turns marks from A to B, and marks from B to C. -/
def renamer : Engine Marks.MarksFile where
  language := Marks.language
  analyzer := Catalog.analyzer markRules
  processors := .ofList [("a", relabel "a" "<B>"), ("b", relabel "b" "<C>")]

/-- Its one processor answers as it is told, and may throw anything. -/
def answering (answer : Except AnyThrown Outcome) : Engine Marks.MarksFile AnyThrown where
  language := Marks.language
  analyzer := Catalog.analyzer markRules
  processors := .ofList [("b", ⟨"b", "b", "", true, fun _ => answer⟩)]

theorem repairSource_describes_renamer : ∃ r j',
    (renamer.repairSource (.ofString "<A>x") "f" ["a", "b"]
      { budget := { passes := .atMost 1 } }).Yields {} r j' ∧
    (r.text, r.stopReason) = (.ofString "<B>x", .maxPasses) ∧
    renamer.Describes (.ofString "<A>x") "f" ["a", "b"] r := by
  obtain ⟨r, j', hrun, hend⟩ := Run.exists_yields (j := {})
    (x := renamer.repairSource (.ofString "<A>x") "f" ["a", "b"]
      { budget := { passes := .atMost 1 } })
    (f := fun r => (r.text, r.stopReason)) (b := (.ofString "<B>x", .maxPasses)) (by decide +kernel)
  exact ⟨r, j', hrun, hend, repairSource_describes (Catalog.deterministic _) hrun⟩

end LintRepair.Engine
