import LintRepair.Proofs.Repair.Results

/-!
# The order of the rules

The rules of a run decide nothing but what the checks of its turns find and in which order its books
list them. A catalog finds the same list in whatever order it is asked, and the books are sorted
before anyone reads them, so the order in which the rules are given does not show in the result.
-/
namespace LintRepair

variable {σ : Type}

/-- Results that nobody can tell apart by what they show. -/
structure RepairResult.LooksLike (r r' : RepairResult σ) : Prop where
  filePath : r.filePath = r'.filePath
  text : r.text = r'.text
  document : r.document.Same r'.document
  changed : r.changed = r'.changed
  stopReason : r.stopReason = r'.stopReason
  passes : r.passes = r'.passes
  remaining : r.remaining = r'.remaining
  statistics : r.statistics.Alike r'.statistics
  snapshot : ∀ order, r.statistics.toValue order = r'.statistics.toValue order

namespace Engine

variable {e : Engine σ} {rules rules' ids ids' : List String} {options : RepairOptions}
  {p p' : Progress σ} {number looks looks' : Nat} {ts : List (TurnReport σ)} {t : TurnReport σ}
  {text : Text} {file : String} {j j' : Journal}

/-- States that differ in nothing but the order of their books and the number of their file. -/
structure Progress.Alike (p p' : Progress σ) : Prop where
  document : p.document.Same p'.document
  statistics : p.statistics.Alike p'.statistics
  passes : p.passes = p'.passes
  remaining : p.remaining = p'.remaining

theorem Progress.Alike.after (h : p.Alike p') (t : TurnReport σ) (options : RepairOptions)
    (number n : Nat) : (t.after options number p n).Alike (t.after options number p' n) where
  document := by
    rw [after_document, after_document]
    exact TurnReport.document_same h.document t n n
  statistics := by
    rw [after_statistics, after_statistics, h.document.1]
    exact h.statistics.enterAll _
  passes := by
    have hactive : ∀ vs, withinBudget options.budget p.statistics vs =
        withinBudget options.budget p'.statistics vs :=
      withinBudget_congr fun id => by rw [h.statistics.applied_eq]
    rw [after_passes, after_passes, h.passes, h.document.1]
    unfold TurnReport.summaries
    simp only [hactive]
  remaining := by rw [after_remaining, after_remaining]

theorem Progress.Alike.looksLike {reason : StopReason} {r r' : RepairResult σ} (h : p.Alike p')
    (hr : SameResult (p.result file text reason) r)
    (hr' : SameResult (p'.result file text reason) r') :
    r.LooksLike r' := by
  have hdocument : r.document.Same r'.document :=
    hr.document.symm.trans (h.document.trans hr'.document)
  have hbooks : r.statistics.Alike r'.statistics := by
    rw [← hr.statistics, ← hr'.statistics, Progress.result, Progress.result, ← h.remaining]
    exact h.statistics.setRemaining p.remaining
  refine ⟨hr.filePath.symm.trans hr'.filePath, congrArg Tree.source hdocument.1, hdocument, ?_,
    hr.stopReason.symm.trans hr'.stopReason, hr.passes.symm.trans (h.passes.trans hr'.passes),
    hr.remaining.symm.trans (h.remaining.trans hr'.remaining), hbooks, hbooks.toValue_eq⟩
  rw [← hr.changed, ← hr'.changed, Progress.result, Progress.result, h.document.1]

theorem perm_firstOccurrences (hids : ∀ id, id ∈ ids ↔ id ∈ ids') :
    (firstOccurrences ids).Perm (firstOccurrences ids') := by
  rw [List.perm_ext_iff_of_nodup (nodup_firstOccurrences ids) (nodup_firstOccurrences ids')]
  intro id
  rw [mem_firstOccurrences, mem_firstOccurrences, hids]

theorem validateRules_reorder (hids : ∀ id, id ∈ ids ↔ id ∈ ids')
    (h : e.validateRules ids = .ok rules) : e.validateRules ids' = .ok (firstOccurrences ids') := by
  obtain ⟨-, hne, hall⟩ := validateRules_eq_ok_iff.mp h
  refine validateRules_eq_ok_iff.mpr ⟨rfl, ?_, fun id hid => hall id ((hids id).mpr hid)⟩
  obtain ⟨id, hid⟩ := List.exists_mem_of_ne_nil ids hne
  exact List.ne_nil_of_mem ((hids id).mp hid)

section Catalog

variable {language : Language σ} {catalog : Catalog σ} {processors : Processors σ}

/-- The engine whose checks are those of a catalog. -/
def ofCatalog (language : Language σ) (catalog : Catalog σ) (processors : Processors σ) :
    Engine σ :=
  ⟨language, Catalog.analyzer catalog, processors⟩

theorem Takes.reorder (hc : Catalog.Keyed catalog) (hrules : rules.Nodup)
    (hperm : rules.Perm rules') (habort : options.abortAfter = none) (hp : p.Alike p')
    (h : (ofCatalog language catalog processors).Takes rules options number looks p t)
    (looks' : Nat) :
    (ofCatalog language catalog processors).Takes rules' options number looks' p' t := by
  refine h.transfer (fun vs hvs => ?_) hp.document rfl (fun id more => ?_) ?_
  · intro j
    obtain ⟨j', hj⟩ := hvs.same (Catalog.deterministic catalog) hp.document j
    exact hc.runChecks_perm hrules hperm hj j
  · rw [hp.statistics.applied_eq]
  · have hsignal : ∀ n, options.interruptedAfter n = options.expired := by
      intro n
      rw [RepairOptions.interruptedAfter, habort]
      rfl
    rw [hsignal, hsignal]
    refine Progress.verdict_eq ?_ (fun id => ?_) ..
    · rfl
    · rw [applied_analyzed, applied_analyzed, hp.statistics.applied_eq]

theorem Leads.reorder (hc : Catalog.Keyed catalog) (hrules : rules.Nodup)
    (hperm : rules.Perm rules') (habort : options.abortAfter = none) (hp : p.Alike p')
    (h : (ofCatalog language catalog processors).Leads rules options number looks p ts)
    (looks' : Nat) :
    (ofCatalog language catalog processors).Leads rules' options number looks' p' ts ∧
      (p.run options number ts).Alike (p'.run options number ts) := by
  induction h generalizing looks' p' with
  | nil => exact ⟨.nil _ _ _, hp⟩
  | cons htakes hstop hrest ih =>
    obtain ⟨hleads, hend⟩ := ih (hp.after _ options _ 0) (looks' + options.looks)
    exact ⟨.cons (htakes.reorder hc hrules hperm habort hp looks') hstop hleads, hend⟩

theorem Ran.reorder {last : TurnReport σ} {reason : StopReason} (hc : Catalog.Keyed catalog)
    (habort : options.abortAfter = none) (hids : ∀ id, id ∈ ids ↔ id ∈ ids')
    (h : (ofCatalog language catalog processors).Ran text file ids options looks rules p ts last
      reason) (looks' : Nat) :
    ∃ p', (ofCatalog language catalog processors).Ran text file ids' options looks'
        (firstOccurrences ids') p' ts last reason ∧
      (p.run options 1 (ts ++ [last])).Alike (p'.run options 1 (ts ++ [last])) := by
  obtain ⟨rfl, -⟩ := validateRules_eq_ok_iff.mp h.valid
  obtain ⟨template, parsed, hparse, rfl⟩ := h.opening
  have hperm := perm_firstOccurrences hids
  have hnodup := nodup_firstOccurrences ids
  let d : Document σ := ⟨.ofTemplate file text template, some parsed, 0⟩
  have hstart : (start d (firstOccurrences ids)).Alike (start d (firstOccurrences ids')) :=
    ⟨.refl d, .track hnodup hperm, rfl, rfl⟩
  obtain ⟨hleads, hend⟩ := h.course.leads.reorder hc hnodup hperm habort hstart looks'
  have hlast := h.course.takes.reorder hc hnodup hperm habort hend
    (looks' + ts.length * options.looks)
  refine ⟨start d (firstOccurrences ids'), ⟨validateRules_reorder hids h.valid,
    ⟨template, parsed, hparse, rfl⟩, ⟨hleads, hlast, h.course.stop⟩, h.bound⟩, ?_⟩
  rw [Progress.run_concat, Progress.run_concat]
  exact hend.after last options _ 0

/-- The order of the rules does not matter, nor how often one of them is named: a run with the same
rules comes to a result that shows the same. -/
theorem repairSource_ruleOrder (hc : Catalog.Keyed catalog) (habort : options.abortAfter = none)
    (hids : ∀ id, id ∈ ids ↔ id ∈ ids') {r : RepairResult σ}
    (h : ((ofCatalog language catalog processors).repairSource text file ids options).Yields j r j')
    (i : Journal) : ∃ r' i',
      ((ofCatalog language catalog processors).repairSource text file ids' options).Yields i r' i' ∧
        r.LooksLike r' := by
  have he : (ofCatalog language catalog processors).analyzer.Deterministic :=
    Catalog.deterministic catalog
  obtain ⟨rules, p, ts, last, hran, hr⟩ := exists_ran he h
  obtain ⟨p', hran', halike⟩ := hran.reorder hc habort hids i.signalReads
  obtain ⟨r', i', hrun, hr'⟩ := hran'.yields he rfl
  exact ⟨r', i', hrun, halike.looksLike hr hr'⟩

end Catalog

theorem keyed_markRules : Catalog.Keyed markRules := by
  intro x hx
  rcases List.mem_cons.mp hx with rfl | hx
  · rfl
  · rw [List.mem_singleton.mp hx]
    rfl

theorem repairSource_ruleOrder_renamer : ∃ r r' j j',
    (renamer.repairSource (.ofString "<A>x") "f" ["a", "b"] {}).Yields {} r j ∧
    r.text = .ofString "<C>x" ∧
    (renamer.repairSource (.ofString "<A>x") "f" ["b", "a", "b"] {}).Yields {} r' j' ∧
    r.LooksLike r' := by
  obtain ⟨r, j, hrun, htext⟩ := Run.exists_yields (j := {})
    (x := (ofCatalog Marks.language markRules renamer.processors).repairSource (.ofString "<A>x")
      "f" ["a", "b"] {})
    (f := fun r => r.text) (b := .ofString "<C>x") (by decide +kernel)
  have hids : ∀ id, id ∈ ["a", "b"] ↔ id ∈ ["b", "a", "b"] := by simp
  obtain ⟨r', j', hrun', hsame⟩ := repairSource_ruleOrder keyed_markRules rfl hids hrun {}
  exact ⟨r, r', j, j', hrun, htext, hrun', hsame⟩

end Engine
end LintRepair
