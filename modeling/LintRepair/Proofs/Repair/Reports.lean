import LintRepair.Proofs.Repair.Budget
import LintRepair.Proofs.Repair.Ledger

/-!
# What a pass does

A pass looks at the tree of its file, at the violations it is given, and at the repairs that are
left of their rules. What it makes of them is its report; the number of the pass, the rest of the
books and the journal have no part in it.
-/
namespace LintRepair

variable {σ : Type} {shop : Workshop σ} {d d' : Document σ} {budget budget' : Budget}
  {requested : RenderMode} {st st' final : PassState} {rounds : List (List Handling)}
  {outcome : PassOutcome σ} {vs : List Violation} {statistics statistics' : Statistics}
  {file : String}
  {number : Nat} {j j' : Journal}

/-- Files that differ in nothing but their number. -/
def Document.Same (d d' : Document σ) : Prop := d.tree = d'.tree ∧ d.parsed = d'.parsed

theorem Document.Same.refl (d : Document σ) : d.Same d := ⟨rfl, rfl⟩

theorem Document.Same.symm (h : d.Same d') : d'.Same d := ⟨h.1.symm, h.2.symm⟩

theorem Document.Same.trans {d'' : Document σ} (h : d.Same d') (h' : d'.Same d'') : d.Same d'' :=
  ⟨h.1.trans h'.1, h.2.trans h'.2⟩

/-- A way of looking at fates that leaves what was produced in sight. -/
structure Fate.View where
  see : Fate → Fate
  set?_see : ∀ (v : Violation) (fate : Fate),
    Handling.set? ⟨v, see fate⟩ = Handling.set? ⟨v, fate⟩

/-- Fates as they are. -/
def Fate.View.plain : Fate.View := ⟨id, fun _ _ => rfl⟩

def Handling.seen (view : Fate.View) (h : Handling) : Handling := ⟨h.violation, view.see h.fate⟩

theorem Handling.seen_plain : Handling.seen .plain = id := rfl

theorem producedBy_seen (view : Fate.View) (hs : List Handling) :
    producedBy (hs.map (Handling.seen view)) = producedBy hs := by
  rw [producedBy, producedBy, List.filterMap_map]
  exact List.filterMap_congr fun h _ => view.set?_see h.violation h.fate

theorem producedBy_congr {view : Fate.View} {hs gs : List Handling}
    (h : hs.map (Handling.seen view) = gs.map (Handling.seen view)) :
    producedBy hs = producedBy gs := by
  rw [← producedBy_seen view hs, h, producedBy_seen]

/-- The line of the books that a violation is worth before the batch. -/
def Handling.entry? (number : Nat) (h : Handling) : Option Statistics.Entry :=
  match h.fate with
  | .skipped | .produced _ => none
  | .declined => some (.declined h.violation.ruleId)
  | .crashed message => some (.crash ⟨h.violation.ruleId, h.violation.file,
      h.violation.location.line, h.violation.location.column, h.violation.nodeKind, number,
      message⟩)

namespace Statistics

theorem addBatch_eq (s : Statistics) (sets : List EditSet) :
    s.addBatch sets = s.enterAll (sets.map fun set => .applied set.violation) := by
  rw [enterAll, List.foldl_map]
  rfl

theorem addDecision_eq (s : Statistics) (file : String) (number : Nat) (decision : RenderDecision) :
    s.addDecision file number decision = s.enterAll (if !decision.fallbackRuleIds.isEmpty then
      [.fallback ⟨file, number, decision.fallbackRuleIds⟩] else []) := by
  unfold addDecision
  split
  · rfl
  · rfl

end Statistics

/-- What a pass does, apart from the books in which it is entered. -/
structure PassReport (σ : Type) where
  handled : List Handling
  deferred : List Violation
  selection : Split EditSet
  /-- What becomes of the batch. -/
  batch : Except Fault (Tree × σ)

namespace PassReport

def seen (view : Fate.View) (r : PassReport σ) : PassReport σ :=
  { r with handled := r.handled.map (Handling.seen view) }

theorem seen_plain (r : PassReport σ) : r.seen .plain = r := by
  rw [seen, Handling.seen_plain, List.map_id]

def result (r : PassReport σ) (fresh : Nat) : PassOutcome σ :=
  if r.selection.taken = [] then .stopped .fixedPoint
  else match r.batch with
    | .error _ => .stopped .passFailure
    | .ok (tree, parsed) => .committed ⟨tree, some parsed, fresh⟩

/-- The lines of the books at the end of the pass. -/
def ending (r : PassReport σ) (requested : RenderMode) (file : String) (number : Nat) :
    List Statistics.Entry :=
  if r.selection.taken = [] then []
  else match r.batch with
    | .error f => [.failure ⟨file, number, f.codeText, f.message⟩]
    | .ok _ =>
      let fallbackRuleIds := (RenderDecision.of requested r.selection.taken).fallbackRuleIds
      (if !fallbackRuleIds.isEmpty then [.fallback ⟨file, number, fallbackRuleIds⟩] else []) ++
        r.selection.taken.map fun set => .applied set.violation

def entries (r : PassReport σ) (requested : RenderMode) (file : String) (number : Nat) :
    List Statistics.Entry :=
  r.handled.filterMap (Handling.entry? number) ++ r.ending requested file number

theorem ending_cases {r : PassReport σ} {entry : Statistics.Entry}
    (h : entry ∈ r.ending requested file number) :
    (∃ f, entry = .failure f) ∨ (∃ f, entry = .fallback f) ∨ ∃ v, entry = .applied v := by
  unfold ending at h
  split at h
  · exact absurd h List.not_mem_nil
  split at h
  · exact .inl ⟨_, List.mem_singleton.mp h⟩
  rcases List.mem_append.mp h with h | h
  · split at h
    · exact .inr (.inl ⟨_, List.mem_singleton.mp h⟩)
    · exact absurd h List.not_mem_nil
  · obtain ⟨set, -, rfl⟩ := List.mem_map.mp h
    exact .inr (.inr ⟨_, rfl⟩)

/-- The books of the pass once its rounds are over. -/
def settled (r : PassReport σ) (file : String) (number : Nat) (vs : List Violation) : Pass :=
  { Pass.filed ⟨file, number, vs, [], [], [], [], [], [], [], [], none, false⟩ r.handled with
    accepted := r.handled.map (·.violation)
    deferred := r.deferred }

def pass (r : PassReport σ) (requested : RenderMode) (file : String) (number : Nat)
    (vs : List Violation) : Pass :=
  if r.selection.taken = [] then { r.settled file number vs with
    selected := r.selection.taken
    conflicts := r.selection.waiting }
  else { (r.settled file number vs).chosen requested r.selection with
    committed := r.batch.toOption.isSome }

theorem pass_file (r : PassReport σ) (requested : RenderMode) (file : String) (number : Nat)
    (vs : List Violation) : (r.pass requested file number vs).file = file := by
  unfold pass
  split <;> rfl

theorem pass_number (r : PassReport σ) (requested : RenderMode) (file : String) (number : Nat)
    (vs : List Violation) : (r.pass requested file number vs).number = number := by
  unfold pass
  split <;> rfl

theorem pass_selected (r : PassReport σ) (requested : RenderMode) (file : String) (number : Nat)
    (vs : List Violation) : (r.pass requested file number vs).selected = r.selection.taken := by
  unfold pass
  split <;> rfl

/-- The state in which a pass ends that was opened on these books. -/
def closing (r : PassReport σ) (requested : RenderMode) (file : String) (number : Nat)
    (vs : List Violation) (statistics : Statistics) : PassState where
  pass := r.pass requested file number vs
  statistics := statistics.enterAll (r.entries requested file number)
  claimed := touchedBy r.handled

end PassReport

namespace PassState

theorem settle_statistics (st : PassState) (h : Handling) : (st.settle h).statistics =
    st.statistics.enterAll (h.entry? st.pass.number).toList := by
  unfold settle Handling.entry?
  cases h.fate with
  | skipped => rfl
  | declined => rfl
  | crashed message => rfl
  | produced set => rfl

theorem foldl_settle_statistics (st : PassState) (hs : List Handling) :
    (hs.foldl settle st).statistics =
      st.statistics.enterAll (hs.filterMap (Handling.entry? st.pass.number)) := by
  induction hs generalizing st with
  | nil => rfl
  | cons h rest ih =>
    have hnumber : (st.settle h).pass.number = st.pass.number := rfl
    rw [List.foldl_cons, ih, settle_statistics, hnumber, ← Statistics.enterAll_append]
    cases hentry : h.entry? st.pass.number with
    | none => rw [List.filterMap_cons_none hentry]; rfl
    | some e => rw [List.filterMap_cons_some hentry]; rfl

end PassState

namespace Rounds

theorem statistics_eq (h : Rounds shop d budget vs st rounds final) : final.statistics =
    st.statistics.enterAll (rounds.flatten.filterMap (Handling.entry? st.pass.number)) := by
  induction h with
  | done st => rfl
  | stuck => rfl
  | round _ _ _ _ ih =>
    rw [ih, PassState.foldl_settle_statistics, ← Statistics.enterAll_append, List.flatten_cons,
      List.filterMap_append, PassState.foldl_settle_pass]
    rfl

theorem claimed_eq (h : Rounds shop d budget vs st rounds final) :
    final.claimed = st.claimed ++ touchedBy rounds.flatten := by
  induction h with
  | done st => simp [touchedBy, producedBy]
  | stuck => simp [touchedBy, producedBy, PassState.enter]
  | round _ _ _ _ ih =>
    rw [ih, PassState.foldl_settle_claimed, List.append_assoc, ← touchedBy_append,
      List.flatten_cons]
    rfl

end Rounds

/-- The budget leaves the same repairs of every rule, however many more are produced. -/
def SameLeft (budget : Budget) (st : PassState) (budget' : Budget) (st' : PassState) : Prop :=
  ∀ id more, budget.repairsPerRule.reached (st.spent id + more) =
    budget'.repairsPerRule.reached (st'.spent id + more)

theorem SameLeft.foldl_settle (h : SameLeft budget st budget' st') {hs gs : List Handling}
    (hsame : producedBy hs = producedBy gs) :
    SameLeft budget (hs.foldl PassState.settle st) budget' (gs.foldl PassState.settle st') := by
  intro id more
  rw [PassState.spent_foldl_settle, PassState.spent_foldl_settle, hsame, Nat.add_assoc,
    Nat.add_assoc]
  exact h id _

theorem reply_congr (hd : d.Same d') (shop : Workshop σ) (v : Violation) :
    reply shop d v = reply shop d' v := by
  unfold reply
  rw [hd.1, hd.2]

section Seen

variable {shop' : Workshop σ} {view : Fate.View}

/-- Shops whose replies look the same make the same of violations, by the look of it. -/
theorem handle_seen (hreply : ∀ v, view.see (reply shop d v) = view.see (reply shop' d' v))
    (h : SameLeft budget st budget' st') (vs : List Violation) :
    (st.handle shop d budget vs).map (Handling.seen view) =
      (st'.handle shop' d' budget' vs).map (Handling.seen view) := by
  induction vs generalizing st st' with
  | nil => rfl
  | cons v rest ih =>
    have hfate : view.see (st.fate shop d budget v) = view.see (st'.fate shop' d' budget' v) := by
      have hcap := h v.ruleId 0
      simp only [PassState.spent, Nat.add_zero] at hcap
      rw [PassState.fate, PassState.fate, hcap]
      split
      · rfl
      · exact hreply v
    have hhead : Handling.seen view ⟨v, st.fate shop d budget v⟩ =
        Handling.seen view ⟨v, st'.fate shop' d' budget' v⟩ := congrArg (Handling.mk v) hfate
    have hproduced : producedBy [⟨v, st.fate shop d budget v⟩] =
        producedBy [⟨v, st'.fate shop' d' budget' v⟩] :=
      producedBy_congr (congrArg (fun g => [g]) hhead)
    rw [PassState.handle, PassState.handle, List.map_cons, List.map_cons, hhead]
    exact congrArg _ (ih (h.foldl_settle hproduced))

theorem Rounds.transfer (h : Rounds shop d budget vs st rounds final) (htree : d.tree = d'.tree)
    (hreply : ∀ v, view.see (reply shop d v) = view.see (reply shop' d' v))
    (hleft : SameLeft budget st budget' st') (hclaimed : st.claimed = st'.claimed)
    (hdeferred : st.pass.deferred = st'.pass.deferred) :
    ∃ rounds' final', Rounds shop' d' budget' vs st' rounds' final' ∧
      rounds.flatten.map (Handling.seen view) = rounds'.flatten.map (Handling.seen view) ∧
      final.pass.deferred = final'.pass.deferred := by
  induction h generalizing st' with
  | done st => exact ⟨[], st', .done st', rfl, hdeferred⟩
  | @stuck vs st split hne hsplit hnone =>
    rw [htree, hclaimed] at hsplit
    exact ⟨[], _, .stuck hne hsplit hnone, rfl, rfl⟩
  | @round vs st split rounds final hne hsplit hsome hrest ih =>
    have henter : SameLeft budget (st.enter split) budget' (st'.enter split) := hleft
    have hsame := handle_seen hreply henter split.taken
    have hproduced := producedBy_congr hsame
    rw [htree, hclaimed] at hsplit
    obtain ⟨rounds', final', hfinal, hflatten, hend⟩ := ih (henter.foldl_settle hproduced)
      (by
        rw [PassState.foldl_settle_claimed, PassState.foldl_settle_claimed, touchedBy, touchedBy,
          hproduced]
        exact congrArg (· ++ _) hclaimed)
      (by
        rw [PassState.foldl_settle_pass, PassState.foldl_settle_pass]
        rfl)
    refine ⟨_, final', .round hne hsplit hsome hfinal, ?_, hend⟩
    rw [List.flatten_cons, List.flatten_cons, List.map_append, List.map_append, hsame, hflatten]

end Seen

/-- What becomes of a batch: it is applied and rendered, and the text is read again. -/
def Language.batch (language : Language σ) (t : Tree) (sets : List EditSet) (mode : RenderMode) :
    Except Fault (Tree × σ) := do
  let edited ← t.applyEditSets sets
  let text ← language.render edited mode
  let (template, parsed) ← language.parse text t.filePath
  return (.ofTemplate t.filePath text template, parsed)

theorem Language.read_of_batch {language : Language σ} {t : Tree} {sets : List EditSet}
    {mode : RenderMode} {x : Tree × σ} (h : language.batch t sets mode = .ok x) :
    ∃ text template parsed, language.parse text t.filePath = .ok (template, parsed) ∧
      x = (.ofTemplate t.filePath text template, parsed) := by
  simp only [batch, bind, Except.bind] at h
  split at h
  · cases h
  split at h
  · cases h
  next text _ =>
  split at h
  · cases h
  next file hparse =>
  cases h
  exact ⟨text, file.1, file.2, hparse, rfl⟩

theorem tryBatch_yields (language : Language σ) (t : Tree) (sets : List EditSet)
    (mode : RenderMode) (j : Journal) : ∃ j', (tryBatch language t sets mode).Yields j
      ((language.batch t sets mode).map fun file => ⟨file.1, some file.2, j.parsed⟩) j' ∧
      j'.signalReads = j.signalReads := by
  unfold tryBatch Language.batch
  cases t.applyEditSets sets with
  | error f => exact ⟨j, .pure _ _, rfl⟩
  | ok edited =>
    dsimp only
    simp only [bind, Except.bind]
    cases language.render edited mode with
    | error f => exact ⟨j, .pure _ _, rfl⟩
    | ok text =>
      dsimp only [Language.read]
      cases language.parse text t.filePath with
      | error f => exact ⟨j, rfl, rfl⟩
      | ok file => exact ⟨_, rfl, rfl⟩

theorem batch_of_tryBatch {language : Language σ} {t : Tree} {sets : List EditSet}
    {mode : RenderMode} {result : Except Fault (Document σ)}
    (h : (tryBatch language t sets mode).Yields j result j') :
    (∀ f, result = .error f → language.batch t sets mode = .error f) ∧
      ∀ next, result = .ok next → ∃ file fresh, language.batch t sets mode = .ok file ∧
        next = ⟨file.1, some file.2, fresh⟩ := by
  obtain ⟨k, hk, -⟩ := tryBatch_yields language t sets mode j
  obtain rfl := h.unique hk
  cases language.batch t sets mode with
  | error f =>
    refine ⟨fun g hg => ?_, fun next hnext => nomatch hnext⟩
    cases hg
    rfl
  | ok file =>
    refine ⟨fun g hg => (nomatch hg), fun next hnext => ⟨file, j.parsed, rfl, ?_⟩⟩
    cases hnext
    rfl

/-- A pass over a file that is opened with some violations comes to this report. -/
structure Reports (shop : Workshop σ) (d : Document σ) (budget : Budget) (requested : RenderMode)
    (vs : List Violation) (statistics : Statistics) (r : PassReport σ) : Prop where
  rounds : ∃ number rounds final, Rounds shop d budget vs
    (.opening d.tree.filePath number vs statistics) rounds final ∧
    rounds.flatten = r.handled ∧ final.pass.deferred = r.deferred
  selection : d.tree.selectCompatible (producedBy r.handled) = .ok r.selection
  batch : shop.language.batch d.tree r.selection.taken
    (RenderDecision.of requested r.selection.taken).mode = r.batch

theorem Rounds.final_eq {r : PassReport σ}
    (h : Rounds shop d budget vs (.opening file number vs statistics) rounds final)
    (hhandled : rounds.flatten = r.handled) (hdeferred : final.pass.deferred = r.deferred) :
    final = { pass := r.settled file number vs
              statistics := statistics.enterAll (r.handled.filterMap (Handling.entry? number))
              claimed := touchedBy r.handled } := by
  have hfinal : final = ⟨final.pass, final.statistics, final.claimed⟩ := rfl
  rw [h.statistics_eq, h.claimed_eq, h.pass_eq, hdeferred, hhandled] at hfinal
  exact hfinal

namespace Reports

variable {r : PassReport σ}

/-- A pass comes to the same report, by the look of it, wherever the language, the file, the replies
and the repairs left are the same. -/
theorem transfer_seen {shop' : Workshop σ} {view : Fate.View}
    (h : Reports shop d budget requested vs statistics r) (hlanguage : shop.language = shop'.language)
    (htree : d.tree = d'.tree)
    (hreply : ∀ v, view.see (reply shop d v) = view.see (reply shop' d' v))
    (hleft : ∀ id more, budget.repairsPerRule.reached (statistics.applied id + more) =
      budget'.repairsPerRule.reached (statistics'.applied id + more)) :
    ∃ r', Reports shop' d' budget' requested vs statistics' r' ∧ r.seen view = r'.seen view := by
  obtain ⟨number, rounds, final, hrounds, hhandled, hdeferred⟩ := h.rounds
  obtain ⟨rounds', final', hrounds', hflatten, hdeferred'⟩ : ∃ rounds' final',
      Rounds shop' d' budget' vs (.opening d'.tree.filePath number vs statistics') rounds' final' ∧
        rounds.flatten.map (Handling.seen view) = rounds'.flatten.map (Handling.seen view) ∧
        final.pass.deferred = final'.pass.deferred := hrounds.transfer htree hreply hleft rfl rfl
  have hselection := h.selection
  have hbatch := h.batch
  rw [htree, ← hhandled, producedBy_congr hflatten] at hselection
  rw [hlanguage, htree] at hbatch
  refine ⟨⟨rounds'.flatten, final'.pass.deferred, r.selection, r.batch⟩,
    ⟨⟨number, rounds', final', hrounds', rfl, rfl⟩, hselection, hbatch⟩, ?_⟩
  rw [PassReport.seen, PassReport.seen, ← hhandled, hflatten, ← hdeferred, hdeferred']

theorem transfer (h : Reports shop d budget requested vs statistics r) (hd : d.Same d')
    (hleft : ∀ id more, budget.repairsPerRule.reached (statistics.applied id + more) =
      budget'.repairsPerRule.reached (statistics'.applied id + more)) :
    Reports shop d' budget' requested vs statistics' r := by
  obtain ⟨r', hr', hseen⟩ : ∃ r', Reports shop d' budget' requested vs statistics' r' ∧
      r.seen .plain = r'.seen .plain :=
    h.transfer_seen rfl hd.1 (fun v => congrArg _ (reply_congr hd shop v)) hleft
  rw [PassReport.seen_plain, PassReport.seen_plain] at hseen
  rwa [hseen]

theorem exists_rounds (h : Reports shop d budget requested vs statistics r) (number : Nat) :
    ∃ rounds, Rounds shop d budget vs (.opening d.tree.filePath number vs statistics) rounds
      { pass := r.settled d.tree.filePath number vs
        statistics := statistics.enterAll (r.handled.filterMap (Handling.entry? number))
        claimed := touchedBy r.handled } := by
  obtain ⟨m, rounds, final, hrounds, hhandled, hdeferred⟩ := h.rounds
  obtain ⟨rounds', final', hrounds', hflatten, hdeferred'⟩ : ∃ rounds' final', Rounds shop d budget vs
      (.opening d.tree.filePath number vs statistics) rounds' final' ∧
        rounds.flatten.map (Handling.seen .plain) = rounds'.flatten.map (Handling.seen .plain) ∧
        final.pass.deferred = final'.pass.deferred :=
    hrounds.transfer rfl (fun _ => rfl) (fun _ _ => rfl) rfl rfl
  rw [Handling.seen_plain, List.map_id, List.map_id, hhandled] at hflatten
  obtain rfl := hrounds'.final_eq hflatten.symm (hdeferred' ▸ hdeferred)
  exact ⟨rounds', hrounds'⟩

end Reports

theorem Rounds.reports {selection : Split EditSet}
    (h : Rounds shop d budget vs (.opening d.tree.filePath number vs statistics) rounds final)
    (hselect : d.tree.selectCompatible final.pass.produced = .ok selection)
    (requested : RenderMode) : Reports shop d budget requested vs statistics
      ⟨rounds.flatten, final.pass.deferred, selection, shop.language.batch d.tree selection.taken
        (RenderDecision.of requested selection.taken).mode⟩ := by
  refine ⟨⟨number, rounds, final, h, rfl, rfl⟩, ?_, rfl⟩
  rw [h.produced_eq] at hselect
  exact hselect

/-- Every pass that ends has a report, which tells all about it. -/
theorem exists_report (h : (runPass shop d budget requested
      (.opening d.tree.filePath number vs statistics)).Yields j (st, outcome) j') :
    ∃ (r : PassReport σ) (fresh : Nat), Reports shop d budget requested vs statistics r ∧
      st = r.closing requested d.tree.filePath number vs statistics ∧ outcome = r.result fresh := by
  obtain ⟨rounds, final, selection, hrounds, hselect, hend⟩ := runPass_cases h
  let r : PassReport σ := ⟨rounds.flatten, final.pass.deferred, selection,
    shop.language.batch d.tree selection.taken (RenderDecision.of requested selection.taken).mode⟩
  have hreports : Reports shop d budget requested vs statistics r := hrounds.reports hselect requested
  refine ⟨r, ?_⟩
  have hfinal := hrounds.final_eq (r := r) rfl rfl
  rw [hfinal] at hend
  cases hend with
  | fixedPoint hnone =>
    have hnone : r.selection.taken = [] := hnone
    refine ⟨0, hreports, ?_, ?_⟩
    · simp only [PassReport.closing, PassReport.pass, PassReport.entries, PassReport.ending,
        if_pos hnone, List.append_nil]
      rfl
    · rw [PassReport.result, if_pos hnone]
  | @failed hsome f k k' hbatch =>
    have hsome : r.selection.taken ≠ [] := hsome
    have hbatch : r.batch = .error f := (batch_of_tryBatch hbatch).1 f rfl
    refine ⟨0, hreports, ?_, ?_⟩
    · simp only [PassReport.closing, PassReport.pass, PassReport.entries, PassReport.ending,
        if_neg hsome, hbatch, Statistics.enterAll_append]
      rfl
    · rw [PassReport.result, if_neg hsome, hbatch]
  | @committed hsome next k k' hbatch =>
    have hsome : r.selection.taken ≠ [] := hsome
    obtain ⟨file, fresh, hfile, rfl⟩ := (batch_of_tryBatch hbatch).2 next rfl
    have hfile : r.batch = .ok file := hfile
    refine ⟨fresh, hreports, ?_, ?_⟩
    · simp only [PassReport.closing, PassReport.pass, PassReport.entries, PassReport.ending,
        if_neg hsome, hfile, Statistics.enterAll_append, Statistics.addDecision_eq,
        Statistics.addBatch_eq]
      rfl
    · rw [PassReport.result, if_neg hsome, hfile]

theorem Reports.gives {r : PassReport σ} (h : Reports shop d budget requested vs statistics r)
    (number : Nat) : (runPass shop d budget requested
      (.opening d.tree.filePath number vs statistics)).Gives fun x => ∃ fresh,
        x = (r.closing requested d.tree.filePath number vs statistics, r.result fresh) := by
  obtain ⟨rounds, hrounds⟩ := h.exists_rounds number
  generalize hfinal : (⟨r.settled d.tree.filePath number vs,
    statistics.enterAll (r.handled.filterMap (Handling.entry? number)), touchedBy r.handled⟩ :
      PassState) = final at hrounds
  have hselect : d.tree.selectCompatible final.pass.produced = .ok r.selection := by
    rw [← hfinal]
    exact h.selection
  simp only [PassReport.closing, PassReport.pass, PassReport.entries, PassReport.ending,
    PassReport.result]
  unfold runPass
  refine .bind (P := fun st => st = final) (fun j => ?_) ?_
  · obtain ⟨j', hj⟩ := hrounds.yields j
    exact ⟨final, j', hj, rfl⟩
  rintro final rfl
  refine .bind (Run.gives_lift (P := fun s => s = r.selection) hselect rfl) ?_
  rintro selection rfl
  by_cases hsome : r.selection.taken = []
  · rw [if_pos (List.isEmpty_iff.mpr hsome)]
    refine Run.gives_pure ⟨0, ?_⟩
    simp only [if_pos hsome, List.append_nil, ← hfinal]
  rw [if_neg fun hnil => hsome (List.isEmpty_iff.mp hnil)]
  simp only [if_neg hsome, Statistics.enterAll_append]
  refine .bind (P := fun result => ∃ fresh,
    result = r.batch.map fun file => ⟨file.1, some file.2, fresh⟩) (fun j => ?_) ?_
  · obtain ⟨j', hj, -⟩ := tryBatch_yields shop.language d.tree r.selection.taken
      (RenderDecision.of requested r.selection.taken).mode j
    rw [h.batch] at hj
    exact ⟨_, j', hj, j.parsed, rfl⟩
  rintro result ⟨fresh, rfl⟩
  cases r.batch with
  | error f =>
    refine .bind (Run.gives_log _) fun _ _ => Run.gives_pure ⟨0, ?_⟩
    rw [← hfinal]
    rfl
  | ok file =>
    dsimp only [Except.map]
    by_cases hfallback :
        (!(RenderDecision.of requested r.selection.taken).fallbackRuleIds.isEmpty) = true
    · simp only [if_pos hfallback]
      refine .bind (Run.gives_log _) fun _ _ => Run.gives_pure ⟨fresh, ?_⟩
      rw [← hfinal, Statistics.enterAll_append, ← Statistics.addBatch_eq]
      rfl
    · simp only [if_neg hfallback]
      refine Run.gives_pure ⟨fresh, ?_⟩
      rw [← hfinal, List.nil_append, ← Statistics.addBatch_eq]
      rfl

end LintRepair
