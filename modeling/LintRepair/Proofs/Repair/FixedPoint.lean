import LintRepair.Proofs.Repair.Passes

/-!
# Fixed points are genuine

A run stops at a fixed point only when every violation that its budget allows was tried in the last
pass and came to nothing. A pass without edit sets has no claims either, so nothing in it is ever
deferred, and no budget is used up on the way.
-/
namespace LintRepair

variable {σ : Type} {shop : Workshop σ} {d : Document σ} {budget : Budget} {vs : List Violation}
  {v : Violation} {st final : PassState} {rounds : List (List Handling)} {j j' : Journal}

/-- A violation was tried in vain. -/
def Handling.Vain (h : Handling) : Prop := h.fate = .declined ∨ ∃ message, h.fate = .crashed message

theorem reply_ne_skipped : reply shop d v ≠ .skipped := by
  unfold reply
  split
  · exact Fate.noConfusion
  · split
    · exact Fate.noConfusion
    · exact Fate.noConfusion
    · exact Fate.noConfusion
    · split
      · exact Fate.noConfusion
      · split <;> exact Fate.noConfusion

theorem Handling.vain_of_barren {h : Handling} (hskip : h.fate ≠ .skipped) (hset : h.set? = none) :
    h.Vain := by
  unfold Handling.set? at hset
  cases hfate : h.fate with
  | skipped => exact absurd hfate hskip
  | declined => exact .inl hfate
  | crashed message => exact .inr ⟨message, hfate⟩
  | produced set =>
    rw [hfate] at hset
    cases hset

theorem Handling.skipped?_eq_none {h : Handling} (hskip : h.fate ≠ .skipped) :
    h.skipped? = none := by
  unfold Handling.skipped?
  split
  · next hfate => exact absurd hfate hskip
  · rfl

theorem length_vain {hs : List Handling} (hvain : ∀ h ∈ hs, h.Vain) (number : Nat) :
    (hs.filterMap Handling.declined?).length + (hs.filterMap (Handling.crash? number)).length =
      hs.length := by
  induction hs with
  | nil => rfl
  | cons h rest ih =>
    have hrest := ih fun g hg => hvain g (List.mem_cons_of_mem _ hg)
    rcases hvain h List.mem_cons_self with hfate | ⟨message, hfate⟩
    · have hdeclined : h.declined? = some h.violation := by rw [Handling.declined?, hfate]
      have hcrash : h.crash? number = none := by rw [Handling.crash?, hfate]
      rw [List.filterMap_cons_some hdeclined, List.filterMap_cons_none hcrash, List.length_cons,
        List.length_cons, ← hrest]
      lia
    · have hdeclined : h.declined? = none := by rw [Handling.declined?, hfate]
      obtain ⟨c, hcrash⟩ : ∃ c, h.crash? number = some c := by
        rw [Handling.crash?, hfate]
        exact ⟨_, rfl⟩
      rw [List.filterMap_cons_none hdeclined, List.filterMap_cons_some hcrash, List.length_cons,
        List.length_cons, ← hrest]
      lia

/-- An answer of a processor that gives no edits to use. -/
def Futile (t : Tree) : Except Thrown Outcome → Prop
  | .ok (.applied edits) => edits = [] ∨ ∃ problem, PassState.problem? t edits = some problem
  | _ => True

theorem futile_of_vain (shop : Workshop σ) (d : Document σ) {processor : Processor σ}
    (hprocessor : shop.processors.get? v.ruleId = some processor)
    (hvain : Handling.Vain ⟨v, reply shop d v⟩) :
    Futile d.tree (processor.apply
      ⟨d.tree, d.parsed, v.node, v, shop.language.fragments d.tree.filePath⟩) := by
  simp only [Handling.Vain, reply, hprocessor] at hvain
  unfold Futile
  split
  · next edits happly =>
    rw [happly] at hvain
    by_cases hedits : edits = []
    · exact .inl hedits
    · cases hproblem : PassState.problem? d.tree edits with
      | some problem => exact .inr ⟨problem, rfl⟩
      | none => simp [hedits, hproblem] at hvain
  · trivial

namespace PassState

theorem applied_settle (st : PassState) (h : Handling) (id : String) :
    (st.settle h).statistics.applied id = st.statistics.applied id := by
  unfold settle
  cases h.fate with
  | skipped => rfl
  | declined => exact Statistics.applied_addDeclined
  | crashed message => exact Statistics.applied_addCrash
  | produced set => rfl

theorem applied_foldl_settle (st : PassState) (hs : List Handling) (id : String) :
    (hs.foldl settle st).statistics.applied id = st.statistics.applied id := by
  induction hs generalizing st with
  | nil => rfl
  | cons h rest ih => rw [List.foldl_cons, ih, applied_settle]

theorem not_skipped_of_barren (hproduced : st.pass.produced = [])
    (hbudget : ∀ v ∈ vs, budget.repairsPerRule.reached (st.statistics.applied v.ruleId) = false)
    (hbarren : producedBy (st.handle shop d budget vs) = []) :
    ∀ h ∈ st.handle shop d budget vs, h.fate ≠ .skipped := by
  induction vs generalizing st with
  | nil => exact fun h hh => absurd hh List.not_mem_nil
  | cons v rest ih =>
    rw [handle, ← List.singleton_append, producedBy_append, List.append_eq_nil_iff] at hbarren
    have hfate : st.fate shop d budget v = reply shop d v := by
      have hopen := hbudget v List.mem_cons_self
      simp [fate, Pass.producedFor, hproduced, hopen]
    have hrest : ∀ h ∈ (st.settle ⟨v, st.fate shop d budget v⟩).handle shop d budget rest,
        h.fate ≠ .skipped := by
      refine ih ?_ ?_ hbarren.2
      · simp only [settle, Pass.filed, hproduced, hbarren.1, List.append_nil]
      · intro w hw
        rw [applied_settle]
        exact hbudget w (List.mem_cons_of_mem _ hw)
    intro h hh
    rw [handle] at hh
    rcases List.mem_cons.mp hh with rfl | hh
    · rw [hfate]
      exact reply_ne_skipped
    · exact hrest h hh

end PassState

namespace Rounds

theorem applied_eq (h : Rounds shop d budget vs st rounds final) (id : String) :
    final.statistics.applied id = st.statistics.applied id := by
  induction h with
  | done st => rfl
  | stuck => rfl
  | round _ _ _ _ ih =>
    rw [ih, PassState.applied_foldl_settle]
    rfl

theorem produced_eq (h : Rounds shop d budget vs st rounds final) :
    final.pass.produced = st.pass.produced ++ producedBy rounds.flatten := by
  rw [h.pass_eq]
  rfl

/-- A pass that starts without claims and produces nothing defers nothing and skips nothing. -/
theorem barren (h : Rounds shop d budget vs st rounds final) (hclaimed : st.claimed = [])
    (hproduced : st.pass.produced = []) (hnil : vs = [] → st.pass.deferred = [])
    (hbudget : ∀ v ∈ vs, budget.repairsPerRule.reached (st.statistics.applied v.ruleId) = false)
    (hbarren : producedBy rounds.flatten = []) :
    final.pass.deferred = [] ∧ ∀ h ∈ rounds.flatten, h.fate ≠ .skipped := by
  induction h with
  | done st => exact ⟨hnil rfl, fun h hh => absurd hh List.not_mem_nil⟩
  | stuck hne hsplit hnone =>
    rw [hclaimed] at hsplit
    exact absurd hnone (Tree.resolveConflicts_ne_nil hsplit hne)
  | @round vs st split rounds final hne hsplit hsome hrest ih =>
    rw [List.flatten_cons, producedBy_append, List.append_eq_nil_iff] at hbarren
    obtain ⟨hfirst, hlater⟩ := hbarren
    have hsub := (Tree.perm_resolveConflicts hsplit).subset
    have hskip : ∀ h ∈ (st.enter split).handle shop d budget split.taken, h.fate ≠ .skipped :=
      PassState.not_skipped_of_barren hproduced
        (fun w hw => hbudget w (hsub (List.mem_append_left _ hw))) hfirst
    have hend := ih ?_ ?_ ?_ ?_ hlater
    · refine ⟨hend.1, fun h hh => ?_⟩
      rw [List.flatten_cons] at hh
      exact (List.mem_append.mp hh).elim (hskip h) (hend.2 h)
    · rw [PassState.foldl_settle_claimed, touchedBy, hfirst]
      exact (List.append_nil _).trans hclaimed
    · rw [PassState.foldl_settle_pass, Pass.filed, hfirst]
      exact (List.append_nil _).trans hproduced
    · intro hw
      rw [PassState.foldl_settle_pass]
      exact hw
    · intro w hw
      rw [PassState.applied_foldl_settle]
      exact hbudget w (hsub (List.mem_append_right _ hw))

end Rounds

/-- The bookkeeping of a pass that had no edit sets to choose from. -/
def Pass.idle (p : Pass) : Pass := { p with selected := [], conflicts := [] }

/-- A pass that tried each of its violations once and in vain, and put none aside. -/
structure Exhausted (shop : Workshop σ) (d : Document σ) (vs : List Violation)
    (rounds : List (List Handling)) (last : PassSummary) : Prop where
  once : (rounds.flatten.map (·.violation)).Perm vs
  vain : ∀ h ∈ rounds.flatten, h.fate = reply shop d h.violation ∧ h.Vain
  deferred : last.deferred = 0
  skipped : last.skipped = 0
  conflicts : last.conflicts = 0
  applied : last.applied = 0
  violations : last.violations = vs.length
  accepted : last.accepted = vs.length
  tried : last.declined + last.crashed = vs.length

theorem Rounds.exhausted {file : String} {number : Nat} {statistics : Statistics}
    (h : Rounds shop d budget vs (.opening file number vs statistics) rounds final)
    (hbudget : ∀ v ∈ vs, budget.repairsPerRule.reached (statistics.applied v.ruleId) = false)
    (hproduced : final.pass.produced = []) :
    Exhausted shop d vs rounds final.pass.idle.summary := by
  have hbarren : producedBy rounds.flatten = [] := by
    rw [h.produced_eq] at hproduced
    exact (List.append_eq_nil_iff.mp hproduced).2
  obtain ⟨hdeferred, hskips⟩ := h.barren rfl rfl (fun _ => rfl) hbudget hbarren
  have hperm : (rounds.flatten.map (·.violation)).Perm vs := by
    have hall := h.perm fun _ => rfl
    rwa [hdeferred, List.append_nil] at hall
  have hlength : rounds.flatten.length = vs.length := by
    rw [← hperm.length_eq, List.length_map]
  have hvain : ∀ g ∈ rounds.flatten, g.Vain := fun g hg =>
    Handling.vain_of_barren (hskips g hg) (List.filterMap_eq_nil_iff.mp hbarren g hg)
  have hskipped : rounds.flatten.filterMap Handling.skipped? = [] :=
    List.filterMap_eq_nil_iff.mpr fun g hg => Handling.skipped?_eq_none (hskips g hg)
  have hpass := h.pass_eq
  rw [hdeferred] at hpass
  rw [hpass]
  constructor
  · exact hperm
  · exact fun g hg => ⟨(h.fate_of_mem hg).resolve_left (hskips g hg), hvain g hg⟩
  · rfl
  · simp [Pass.idle, Pass.summary, Pass.filed, PassState.opening, hskipped]
  · rfl
  · rfl
  · rfl
  · exact (List.length_map ..).trans hlength
  · exact (length_vain hvain number).trans hlength

/-- A pass that stops at a fixed point has run its rounds and produced nothing. -/
theorem runPass_fixedPoint {requested : RenderMode} {st' : PassState}
    (h : (runPass shop d budget requested st).Yields j (st', .stopped .fixedPoint) j') :
    ∃ rounds final, Rounds shop d budget st.pass.violations st rounds final ∧
      final.pass.produced = [] ∧
      st' = { final with pass := final.pass.idle } := by
  obtain ⟨rounds, final, selection, hrounds, hselect, hend⟩ := runPass_cases h
  cases hend with
  | fixedPoint hnone =>
    have hproduced : final.pass.produced = [] := by
      by_contra hne
      exact Tree.takeClear_ne_nil hselect hne hnone
    have hwaiting : selection.waiting = [] := by
      have hperm := Tree.perm_takeClear hselect
      rw [hnone, hproduced] at hperm
      exact hperm.eq_nil
    refine ⟨rounds, final, hrounds, hproduced, ?_⟩
    rw [hnone, hwaiting]
    rfl

theorem Rounds.runPass_yields (h : Rounds shop d budget vs st rounds final)
    (hvs : st.pass.violations = vs) (hproduced : final.pass.produced = []) (requested : RenderMode)
    (j : Journal) :
    ∃ j', (runPass shop d budget requested st).Yields j
      ({ final with pass := final.pass.idle }, .stopped .fixedPoint) j' := by
  subst hvs
  obtain ⟨j', hj⟩ := h.yields j
  have hselect : d.tree.selectCompatible final.pass.produced = .ok ⟨[], []⟩ := by
    rw [hproduced]
    rfl
  unfold runPass
  simp only [Run.yields_bind, Run.yields_lift]
  exact ⟨j', final, j', hj, _, j', ⟨hselect, rfl⟩, Run.yields_pure.mpr ⟨rfl, rfl⟩⟩

namespace Engine

variable {e : Engine σ} {rules : List String} {options : RepairOptions} {p p' : Progress σ}
  {number : Nat}

theorem turn_fixedPoint (h : (e.turn rules options number p).Yields j (p', some .fixedPoint) j') :
    ∃ statistics rounds final,
      Rounds ⟨e.language, e.processors⟩ p'.document options.budget
        (withinBudget options.budget statistics p'.remaining)
        (.opening p'.document.tree.filePath number
          (withinBudget options.budget statistics p'.remaining) statistics) rounds final ∧
      final.pass.produced = [] ∧ p'.statistics = final.statistics ∧
      p'.passes = p.passes ++ [final.pass.idle.summary] := by
  obtain ⟨remaining, k, -, hend⟩ := turn_cases h
  cases hend with
  | stopped hopen hpass =>
    obtain ⟨rounds, final, hrounds, hproduced, rfl⟩ := runPass_fixedPoint hpass
    exact ⟨_, rounds, final, hrounds, hproduced, rfl, rfl⟩

/-- A run that stops at a fixed point has tried every violation within its budget in its last pass,
each one once and in vain; nothing was deferred, skipped or rejected there. -/
theorem repair_fixedPoint {ids : List String} {r : RepairResult σ}
    (h : (e.repair d ids options).Yields j r j') (hstop : r.stopReason = .fixedPoint) :
    ∃ number statistics rounds final,
      let active := withinBudget options.budget r.statistics r.remaining
      let shop : Workshop σ := ⟨e.language, e.processors⟩
      Rounds shop r.document options.budget active
        (.opening r.document.tree.filePath number active statistics) rounds final ∧
      r.passes.getLast? = some final.pass.idle.summary ∧
      Exhausted shop r.document active rounds final.pass.idle.summary ∧
      ∀ v ∈ active, v.ruleId ∈ ids → ∃ processor, e.processors.get? v.ruleId = some processor ∧
        Futile r.document.tree (processor.apply ⟨r.document.tree, r.document.parsed, v.node, v,
          e.language.fragments r.document.tree.filePath⟩) := by
  unfold repair at h
  simp only [Run.yields_bind, Run.yields_lift, Run.yields_pure] at h
  obtain ⟨rules, k, ⟨hrules, rfl⟩, ⟨p, reason⟩, k', hturns, rfl, rfl⟩ := h
  dsimp only at hstop ⊢
  subst hstop
  obtain ⟨number, before, k₁, k₂, -, hturn⟩ := Reached.start.of_turns hturns
  obtain ⟨statistics, rounds, final, hrounds, hproduced, hstatistics, hpasses⟩ :=
    turn_fixedPoint hturn
  have happlied : withinBudget options.budget (p.statistics.setRemaining p.remaining) p.remaining =
      withinBudget options.budget statistics p.remaining := by
    simp only [withinBudget, Statistics.applied_setRemaining, hstatistics, hrounds.applied_eq]
    rfl
  rw [happlied]
  have hexhausted := hrounds.exhausted (fun v hv => by simpa using (List.mem_filter.mp hv).2)
    hproduced
  refine ⟨number, statistics, rounds, final, hrounds, ?_, hexhausted, ?_⟩
  · rw [hpasses, List.getLast?_concat]
  · intro v hv hid
    obtain ⟨processor, hprocessor⟩ := (validateRules_spec hrules).2 _ hid
    obtain ⟨h, hh, rfl⟩ := List.mem_map.mp (hexhausted.once.symm.subset hv)
    obtain ⟨hreply, hvain⟩ := hexhausted.vain h hh
    refine ⟨processor, hprocessor,
      futile_of_vain ⟨e.language, e.processors⟩ p.document hprocessor ?_⟩
    rwa [← hreply]

/-- An engine whose only processor declines. -/
def declining : Engine Unit where
  language := insertingShop.language
  analyzer := ⟨fun _ => true, fun _ _ => pure nestedViolations⟩
  processors := .ofList [("r", ⟨"r", "r", "", true, fun _ => .ok (.declined "")⟩)]

/-- Two nested violations are both tried in one pass when nothing comes of the inner one. -/
theorem repair_fixedPoint_declining :
    ∃ r j', (declining.repair nestedDocument ["r"] {}).Yields {} r j' ∧ r.stopReason = .fixedPoint ∧
      ∃ last, r.passes.getLast? = some last ∧ last.deferred = 0 ∧
        last.declined + last.crashed = (withinBudget {} r.statistics r.remaining).length := by
  have hvs := consistent_nestedViolations
  have hfirst : nestedDocument.tree.resolveConflicts nestedViolations [] =
      .ok ⟨nestedViolations.take 1, nestedViolations.drop 1⟩ := by
    rw [Tree.resolveConflicts, Tree.inRepairOrder_of_pairwise hvs (by decide)]
    rfl
  have hsecond : nestedDocument.tree.resolveConflicts (nestedViolations.drop 1) [] =
      .ok ⟨nestedViolations.drop 1, []⟩ := by
    rw [Tree.resolveConflicts, Tree.inRepairOrder_of_pairwise
      (hvs.mono (List.drop_subset _ _)) (by decide)]
    rfl
  let statistics := (Statistics.track {} ["r"]).addFound nestedViolations
  have hrounds : ∃ rounds final, Rounds ⟨declining.language, declining.processors⟩ nestedDocument {}
      nestedViolations (.opening "f" 1 nestedViolations statistics) rounds final ∧
      final.pass.produced = [] :=
    ⟨_, _, .round (List.cons_ne_nil _ _) hfirst (List.cons_ne_nil _ _)
      (.round (List.cons_ne_nil _ _) hsecond (List.cons_ne_nil _ _) (.done _)), rfl⟩
  obtain ⟨rounds, final, hrounds, hproduced⟩ := hrounds
  obtain ⟨j, hpass⟩ := hrounds.runPass_yields rfl hproduced .targeted {}
  have hturn : ∃ p' j', (declining.turn ["r"] {} 1
      { document := nestedDocument, statistics := Statistics.track {} ["r"] }).Yields {}
        (p', some .fixedPoint) j' := by
    exact ⟨_, _, .bind (.pure nestedViolations {}) (.bind (.bind (.pure false {}) (.pure false {}))
      (.bind hpass (.bind (a := ()) (Run.yields_log.mpr rfl) (.pure _ _))))⟩
  obtain ⟨p, k, hturn⟩ := hturn
  have hturns : (declining.turns ["r"] {} 0 11 1
      { document := nestedDocument, statistics := Statistics.track {} ["r"] }).Yields {}
        (p, .fixedPoint) k :=
    .bind ((Run.yields_tryCatch fun _ _ _ _ => Run.not_yields_bind_throw).mpr hturn) (.pure _ _)
  have hrun : ∃ r, (declining.repair nestedDocument ["r"] {}).Yields {} r k ∧
      r.stopReason = .fixedPoint :=
    ⟨_, .bind (Run.yields_lift.mpr ⟨rfl, rfl⟩) (.bind hturns (.pure _ _)), rfl⟩
  obtain ⟨r, hrun, hstop⟩ := hrun
  obtain ⟨_, _, _, _, -, hlast, hexhausted, -⟩ := repair_fixedPoint hrun hstop
  exact ⟨r, k, hrun, hstop, _, hlast, hexhausted.deferred, hexhausted.tried⟩

end Engine
end LintRepair
