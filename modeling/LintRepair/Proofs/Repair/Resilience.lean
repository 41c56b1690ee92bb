import LintRepair.Proofs.Repair.Results
import LintRepair.Proofs.Repair.Steadiness
import LintRepair.Proofs.Repair.Termination

/-!
# Nothing that a processor does stops a run

Whatever the processors of a run answer, its turns end, if what they throw can be put into words: the
rounds of a pass claim only nodes of the tree, so the resolver, the selection and the plan of the batch
find every node they ask for. A batch that cannot be applied, rendered or read again ends the run with
one failure in the books and leaves everything else as it was.
-/
namespace LintRepair

variable {σ : Type} {shop : Workshop σ} {d : Document σ} {budget : Budget} {requested : RenderMode}
  {vs : List Violation} {statistics : Statistics} {file : String} {number : Nat}

/-- Between two books nothing was applied, and one pass failed. -/
structure Statistics.Discards (s : Statistics) (failure : PassFailure) (s' : Statistics) : Prop where
  applied : ∀ id, s'.applied id = s.applied id
  places : ∀ id, s'.places id = s.places id
  failures : s'.failures = s.failures ++ [failure]

theorem Statistics.discards_enterAll {s : Statistics} {es : List Entry} {failure : PassFailure}
    (hes : ∀ v, Entry.applied v ∉ es) (hfailure : es.filterMap Entry.failure? = [failure]) :
    s.Discards failure (s.enterAll es) where
  applied := applied_enterAll hes s
  places := places_enterAll_eq hes s
  failures := by rw [failures_enterAll, hfailure]

theorem Handling.failure?_entry_eq_none (number : Nat) (h : Handling) :
    (h.entry? number).bind Statistics.Entry.failure? = none := by
  unfold Handling.entry?
  cases h.fate <;> rfl

theorem PassReport.failures_entries (r : PassReport σ) (requested : RenderMode) (file : String)
    (number : Nat) : (r.entries requested file number).filterMap Statistics.Entry.failure? =
      if r.selection.taken = [] then [] else match r.batch with
        | .error f => [⟨file, number, f.codeText, f.message⟩]
        | .ok _ => [] := by
  have happlied : (r.selection.taken.map fun set => Statistics.Entry.applied set.violation).filterMap
      Statistics.Entry.failure? = [] := by
    rw [List.filterMap_map, List.filterMap_eq_nil_iff]
    exact fun _ _ => rfl
  rw [entries, List.filterMap_append, List.filterMap_filterMap]
  simp only [Handling.failure?_entry_eq_none, List.filterMap_none, List.nil_append, ending]
  split
  · rfl
  cases r.batch with
  | error f => rfl
  | ok file =>
    dsimp only
    rw [List.filterMap_append, happlied, List.append_nil]
    split
    · rfl
    · rfl

theorem PassReport.result_of_error {r : PassReport σ} {fault : Fault}
    (hsome : r.selection.taken ≠ []) (hbatch : r.batch = .error fault) (fresh : Nat) :
    r.result fresh = .stopped .passFailure := by
  rw [result, if_neg hsome, hbatch]

theorem PassReport.discards {r : PassReport σ} {fault : Fault} (hsome : r.selection.taken ≠ [])
    (hbatch : r.batch = .error fault) (requested : RenderMode) (file : String) (number : Nat)
    (statistics : Statistics) : statistics.Discards ⟨file, number, fault.codeText, fault.message⟩
      (statistics.enterAll (r.entries requested file number)) := by
  have hstop : (Engine.TurnReport.passed [] r).stop? = some .passFailure :=
    congrArg PassOutcome.stop? (result_of_error hsome hbatch 0)
  refine Statistics.discards_enterAll (fun v hv => ?_) ?_
  · exact Engine.TurnReport.notMem_entries_of_stop hstop { mode := requested } number file v
      (List.mem_append_right _ hv)
  · rw [failures_entries, if_neg hsome, hbatch]

namespace Engine

variable {e : Engine σ} {rules ids : List String} {options : RepairOptions} {p p' : Progress σ}
  {stop : Option StopReason} {j j' j₀ : Journal}

theorem exists_passed (p : Progress σ) (number : Nat) (remaining : List Violation)
    {st : PassState} {outcome : PassOutcome σ} (h : (runPass ⟨e.language, e.processors⟩ p.document
      options.budget options.mode
      ((p.analyzed number remaining).opening options.budget number)).Yields j (st, outcome) j') :
    ∃ (pass : PassReport σ) (fresh : Nat), (p.analyzed number remaining).close st outcome =
        (TurnReport.passed remaining pass).after options number p fresh ∧
      outcome.stop? = (TurnReport.passed remaining pass).stop? := by
  obtain ⟨pass, fresh, -, rfl, rfl⟩ := exists_report h
  exact ⟨pass, fresh, rfl, TurnReport.stop?_result pass fresh⟩

/-- A turn ends as some report says, and only a pass fails. -/
theorem exists_after (h : (e.turn rules options number p).Yields j (p', stop) j') :
    ∃ (t : TurnReport σ) (fresh : Nat), p' = t.after options number p fresh ∧ stop = t.stop? ∧
      ∀ remaining, t ≠ .halted remaining .passFailure := by
  obtain ⟨remaining, k, -, hend⟩ := turn_cases h
  cases hend with
  | clean => exact ⟨.halted remaining .clean, 0, rfl, rfl, fun _ => nofun⟩
  | aborted => exact ⟨.halted remaining .aborted, 0, rfl, rfl, fun _ => nofun⟩
  | exhausted => exact ⟨.halted remaining .budgetExhausted, 0, rfl, rfl, fun _ => nofun⟩
  | capped => exact ⟨.halted remaining .maxPasses, 0, rfl, rfl, fun _ => nofun⟩
  | stopped _ hpass =>
    obtain ⟨pass, fresh, hafter, hstop⟩ := exists_passed p number remaining hpass
    exact ⟨.passed remaining pass, fresh, hafter, hstop, fun _ => nofun⟩
  | committed _ hpass =>
    obtain ⟨pass, fresh, hafter, hstop⟩ := exists_passed p number remaining hpass
    exact ⟨.passed remaining pass, fresh, hafter, hstop, fun _ => nofun⟩

/-- A turn fails only by its batch, and then it leaves the file and the repairs alone. -/
theorem turn_failure (h : (e.turn rules options number p).Yields j (p', stop) j') :
    (stop = some .passFailure → p'.document = p.document ∧ ∃ code message, p.statistics.Discards
      ⟨p.document.tree.filePath, number, code, message⟩ p'.statistics) ∧
    (stop ≠ some .passFailure → p'.statistics.failures = p.statistics.failures) := by
  obtain ⟨t, fresh, rfl, rfl, hpass⟩ := exists_after h
  rw [after_document, after_statistics]
  have hfailures := TurnReport.filterMap_entries (f := Statistics.Entry.failure?) (fun _ => rfl) t
    options number p.document.tree.filePath
  constructor
  · intro hstop
    refine ⟨TurnReport.document_of_stop hstop _ _, ?_⟩
    have hes := TurnReport.notMem_entries_of_stop hstop options number p.document.tree.filePath
    cases t with
    | halted remaining reason => exact absurd (congrArg _ (Option.some.inj hstop)) (hpass remaining)
    | passed remaining pass =>
      rcases TurnReport.stop?_passed hstop with ⟨hne, -⟩ | ⟨-, hsome, f, hbatch⟩
      · cases hne
      · have hfailure := hfailures.trans (pass.failures_entries ..)
        rw [if_neg hsome, hbatch] at hfailure
        exact ⟨_, _, Statistics.discards_enterAll hes hfailure⟩
  · intro hstop
    rw [Statistics.failures_enterAll, List.append_right_eq_self]
    cases t with
    | halted remaining reason => exact hfailures
    | passed remaining pass =>
      refine hfailures.trans ((pass.failures_entries ..).trans ?_)
      rw [TurnReport.stop?, PassReport.result] at hstop
      split
      · rfl
      · next hsome =>
        rw [if_neg hsome] at hstop
        cases hbatch : pass.batch with
        | ok x => rfl
        | error f =>
          rw [hbatch] at hstop
          exact absurd rfl hstop

theorem Reached.fresh (h : e.Reached rules options d j₀ number p j) (hd : e.Fresh file d) :
    e.Fresh file p.document := by
  rcases h.document_cases with heq | ⟨text, template, parsed, fresh, hparse, heq⟩
  · rwa [heq]
  · obtain ⟨_, _, _, htree, _⟩ := hd
    have hfile : d.tree.filePath = file := by
      rw [htree]
      rfl
    rw [heq, ← hfile]
    exact ⟨template, parsed, hparse, rfl, rfl⟩

theorem Fresh.wellFormed (h : e.Fresh file d) : d.tree.WellFormed := by
  obtain ⟨template, parsed, -, htree, -⟩ := h
  rw [htree]
  exact Tree.wellFormed_ofTemplate ..

/-- A pass that asks for no node but those of its tree, up to the plan of its batch, and ends. Where the
batch comes to nothing, the pass leaves its failure in the books and nothing else. -/
structure Withstands {τ : Type} [Throwable τ] (e : Engine σ τ) (options : RepairOptions)
    (d : Document σ) (st final : PassState) (selection : Split EditSet) : Prop where
  rounds : ∀ k, ∃ k', (st.rounds ⟨e.language, e.processors⟩ d options.budget
    st.pass.violations).Yields k final k'
  selected : d.tree.selectCompatible final.pass.produced = .ok selection
  planned : ∃ plan, d.tree.planEdits selection.taken = .ok plan
  ends : ∀ k, ∃ st' outcome k', (runPass ⟨e.language, e.processors⟩ d options.budget options.mode
    st).Yields k (st', outcome) k'
  discards : ∀ fault, selection.taken ≠ [] → e.language.batch d.tree selection.taken
      (RenderDecision.of options.mode selection.taken).mode = .error fault → ∀ k, ∃ st' k',
    (runPass ⟨e.language, e.processors⟩ d options.budget options.mode st).Yields k
      (st', .stopped .passFailure) k' ∧
    st.statistics.Discards ⟨d.tree.filePath, st.pass.number, fault.codeText, fault.message⟩
      st'.statistics

theorem exists_withstands (e : Engine σ) (options : RepairOptions) (hd : d.tree.WellFormed)
    (hvs : d.tree.Holds vs) (number : Nat) (statistics : Statistics) :
    ∃ final selection, e.Withstands options d (.opening d.tree.filePath number vs statistics) final
      selection := by
  obtain ⟨rounds, final, selection, hrounds, hselect, hlive⟩ :=
    exists_selection ⟨e.language, e.processors⟩ options.budget hd hvs d.tree.filePath number
      statistics
  have hreports := hrounds.reports hselect options.mode
  refine ⟨final, selection, hrounds.yields, hselect, ⟨_, Tree.planEdits_eq ?_⟩, fun k => ?_, ?_⟩
  · intro set hset edit hedit
    have hproduced := (Tree.perm_takeClear hselect).subset (List.mem_append_left _ hset)
    exact hlive set hproduced _ (EditSet.mem_touched_iff.mpr (.inr ⟨edit, hedit, rfl⟩))
  · obtain ⟨x, k', hrun, fresh, rfl⟩ := hreports.gives number k
    exact ⟨_, _, k', hrun⟩
  · intro fault hsome hbatch k
    obtain ⟨x, k', hrun, fresh, rfl⟩ := hreports.gives number k
    rw [PassReport.result_of_error hsome hbatch] at hrun
    exact ⟨_, k', hrun, PassReport.discards hsome hbatch ..⟩

section Worded

variable {τ : Type} [Throwable τ] {e : Engine σ τ}

theorem withstands_worded (h : e.processors.Worded) {st final : PassState} {selection : Split EditSet}
    (hw : e.worded.Withstands options d st final selection) :
    e.Withstands options d st final selection where
  rounds k := PassState.rounds_worded h d options.budget st st.pass.violations ▸ hw.rounds k
  selected := hw.selected
  planned := hw.planned
  ends k := runPass_worded h d options.budget options.mode st ▸ hw.ends k
  discards fault hsome hbatch k :=
    runPass_worded h d options.budget options.mode st ▸ hw.discards fault hsome hbatch k

/-- No processor can make a run fail, if everything that it throws tells its wording. Over a text that
parses, with checks that answer and report nodes of the tree, a run gives a result, unless its budget
has no bound and it is still turning after all of its turns. Every turn ends. It leaves the file and the
repairs as they were, with one failure more in the books, if its batch comes to nothing, and no failure
otherwise. In every pass the nodes that are asked for are there. -/
theorem withstands_processors (hworded : e.processors.Worded)
    (hrules : e.validateRules ids = .ok rules) (hd : e.Fresh file d)
    (hchecks : ∀ d', e.Fresh file d' → (e.analyzer.runChecks d' rules).Gives d'.tree.Holds)
    (options : RepairOptions) (j : Journal) :
    ((∃ r j', (e.repair d ids options).Yields j r j') ∨
      (options.budget.passes = .unbounded ∧ options.budget.repairsPerRule = .unbounded) ∧
        ∃ p k, e.Reached rules options d j (1 + e.turnBound options) p k) ∧
    (∀ n p k, e.Reached rules options d j n p k → ∃ p' stop k',
      (e.turn rules options n p).Yields k (p', stop) k' ∧
      (stop = some .passFailure → p'.document = p.document ∧ ∃ code message,
        p.statistics.Discards ⟨p.document.tree.filePath, n, code, message⟩ p'.statistics) ∧
      (stop ≠ some .passFailure → p'.statistics.failures = p.statistics.failures)) ∧
    ∀ d' st, e.Begins rules options d j d' st →
      ∃ final selection, e.Withstands options d' st final selection := by
  simp only [← repair_worded hworded, ← reached_worded_iff hworded, ← turnBound_worded e,
    ← turn_worded hworded]
  rw [← validateRules_worded] at hrules
  have hturns : ∀ n p k, e.worded.Reached rules options d j n p k →
      (e.worded.turn rules options n p).Gives fun _ => True := by
    intro n p k h
    have hp := h.fresh hd
    exact gives_turn (hchecks p.document hp) hp.wellFormed options n
  refine ⟨?_, fun n p k h => ?_, ?_⟩
  · by_cases hbounded :
        options.budget.passes ≠ .unbounded ∨ options.budget.repairsPerRule ≠ .unbounded
    · exact .inl (exists_result hrules hturns hbounded)
    · rw [not_or, not_not, not_not] at hbounded
      exact (result_or_reached hrules hturns).imp_right (⟨hbounded, ·⟩)
  · obtain ⟨⟨p', stop⟩, k', hturn, -⟩ := hturns n p k h k
    exact ⟨p', stop, k', hturn, turn_failure hturn⟩
  · rintro d' st ⟨number, p, remaining, k, k', h, hfound, rfl, rfl⟩
    have hp := ((reached_worded_iff hworded).mpr h).fresh hd
    obtain ⟨vs, k'', hyields, hvs⟩ := hchecks p.document hp k
    obtain rfl := hyields.unique hfound
    obtain ⟨final, selection, hwithstands⟩ := exists_withstands e.worded options hp.wellFormed
      (hvs.mono (List.filter_subset_self _)) number (p.analyzed number vs).statistics
    exact ⟨final, selection, withstands_worded hworded hwithstands⟩

end Worded

end Engine

theorem Catalog.gives_holds {catalog : Catalog σ} {parsed : σ} {ids : List String}
    (hd : d.parsed = some parsed) (hanswers : AllAnswer catalog parsed ids) :
    (runChecks catalog d ids).Gives d.tree.Holds := by
  intro j
  obtain ⟨j', hrun⟩ := (runChecks_yields_iff hd (j := j)).mpr ⟨hanswers, rfl⟩
  refine ⟨_, j', hrun, fun v hv => ?_⟩
  rw [List.mem_mergeSort] at hv
  obtain ⟨id, -, hflag⟩ :=
    List.mem_flatMap.mp ((mem_foldl_keep hv).resolve_left List.not_mem_nil)
  unfold flags at hflag
  split at hflag
  · exact absurd hflag List.not_mem_nil
  split at hflag
  · obtain ⟨hit, -, hit'⟩ := List.mem_filterMap.mp hflag
    unfold flag? at hit'
    split at hit'
    · simp only [Option.bind_eq_bind, Option.bind_eq_some_iff] at hit'
      obtain ⟨h, -, node, hnode, hv⟩ := hit'
      cases hv
      exact ⟨node, hnode⟩
    · cases hit'
  · exact absurd hflag List.not_mem_nil

namespace Engine

/-- Replaces a mark so that the text can no longer be read, or deletes a node that never was. -/
def hostile : Engine Marks.MarksFile :=
  { renamer with
    processors := .ofList [("a", relabel "a" "<"),
      ("b", ⟨"b", "b", "", true, fun _ => .ok (.applied [.delete 99])⟩)] }

/-- The batch of its first turn is given up, and its run gives a result. -/
theorem withstands_processors_hostile : ∃ d r p' j j' k',
    (hostile.language.read (.ofString "<A>x") "f").Yields {} d j ∧
    (hostile.repair d ["a", "b"] {}).Yields j r j' ∧
    (hostile.turn ["a", "b"] {} 1 (start d ["a", "b"])).Yields j (p', some .passFailure) k' ∧
    p'.document = d ∧ ∃ code message,
      (start d ["a", "b"]).statistics.Discards ⟨"f", 1, code, message⟩ p'.statistics := by
  obtain ⟨⟨p', stop⟩, k', hrun, rfl⟩ := Run.exists_yields (j := {})
    (x := hostile.language.read (.ofString "<A>x") "f" >>= fun d =>
      hostile.turn ["a", "b"] {} 1 (start d ["a", "b"]))
    (f := fun x => x.2) (b := some .passFailure) (by decide +kernel)
  obtain ⟨d, j, hread, hturn⟩ := Run.yields_bind.mp hrun
  obtain ⟨template, parsed, hparse, rfl, rfl⟩ := read_yields_iff.mp hread
  have hchecks : ∀ d', hostile.Fresh "f" d' →
      (hostile.analyzer.runChecks d' ["a", "b"]).Gives d'.tree.Holds := by
    rintro d' ⟨_, parsed', -, -, hparsed⟩
    refine Catalog.gives_holds hparsed fun id hid check hcheck => ?_
    rcases List.mem_cons.mp hid with rfl | hid
    · cases hcheck
      exact ⟨_, rfl⟩
    · obtain rfl := List.mem_singleton.mp hid
      cases hcheck
      exact ⟨_, rfl⟩
  have hrules : hostile.validateRules ["a", "b"] = .ok ["a", "b"] := rfl
  obtain ⟨hresult, hturns, -⟩ := withstands_processors (e := hostile)
    (fun _ _ _ _ thrown _ => ⟨_, rfl⟩) hrules
    (d := ⟨.ofTemplate "f" (.ofString "<A>x") template, some parsed, 0⟩)
    ⟨template, parsed, hparse, rfl, rfl⟩ hchecks {} { parsed := 1 }
  obtain ⟨q, stop, k, hagain, hfailure, -⟩ := hturns 1 _ _ .start
  obtain ⟨rfl, rfl⟩ := Prod.mk.inj (hturn.unique hagain)
  obtain ⟨r, j', hrepair⟩ := hresult.resolve_right fun h => nomatch h.1.1
  exact ⟨_, r, p', _, j', k', hread, hrepair, hturn, hfailure rfl⟩

/-- What a processor throws need not have a wording, and recording it then ends the run. -/
theorem withstands_not_wordless : ¬ ∀ (e : Engine Marks.MarksFile AnyThrown) (file : String)
    (ids rules : List String) (d : Document Marks.MarksFile) (j : Journal),
    e.validateRules ids = .ok rules → e.Fresh file d →
    (∀ d', e.Fresh file d' → (e.analyzer.runChecks d' rules).Gives d'.tree.Holds) →
    ∃ r j', (e.repair d ids {}).Yields j r j' := by
  intro hwithstands
  obtain ⟨f, k, hfails⟩ := Run.exists_fails (j := {})
    (x := Marks.language.read (.ofString "<B>x") "f" >>= fun d =>
      (answering (.error (.wordless .wordless))).repair d ["b"] {}) (by decide +kernel)
  obtain ⟨d, j, hread, -⟩ := Run.exists_yields (j := {})
    (x := Marks.language.read (.ofString "<B>x") "f")
    (f := fun d => d.number) (b := 0) (by decide +kernel)
  obtain ⟨template, parsed, hparse, rfl, rfl⟩ := read_yields_iff.mp hread
  obtain ⟨r, j', hrun⟩ := hwithstands (answering (.error (.wordless .wordless))) "f" ["b"] ["b"]
    ⟨.ofTemplate "f" (.ofString "<B>x") template, some parsed, 0⟩ { parsed := 1 }
    rfl ⟨template, parsed, hparse, rfl, rfl⟩ fun d' ⟨_, parsed', _, _, hparsed⟩ =>
      Catalog.gives_holds hparsed fun id hid check hcheck => by
        obtain rfl := List.mem_singleton.mp hid
        cases hcheck
        exact ⟨_, rfl⟩
  exact nomatch (Prod.mk.inj ((hread.bind hrun).symm.trans hfails)).1

end Engine
end LintRepair
