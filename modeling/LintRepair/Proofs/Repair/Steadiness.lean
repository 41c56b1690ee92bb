import LintRepair.Proofs.Repair.Courses
import LintRepair.Proofs.Rules.Listing

/-!
# Runs that come to the same

Two computations match when from related states they fail alike or give related values. A repair
without an abort signal matches itself: whatever the journal holds by then, it comes to the same
result but for the numbers of the files.
-/
namespace LintRepair

/-- Outcomes that are the same fault, or values in a relation. -/
inductive SameOutcome {α β : Type} (R : α → β → Prop) : Except Fault α → Except Fault β → Prop where
  | ok {a : α} {b : β} (h : R a b) : SameOutcome R (.ok a) (.ok b)
  | error (f : Fault) : SameOutcome R (.error f) (.error f)

theorem SameOutcome.eq {α : Type} {a b : Except Fault α} (h : SameOutcome Eq a b) : a = b := by
  cases h with
  | ok h => rw [h]
  | error f => rfl

theorem sameOutcome_refl {α : Type} (a : Except Fault α) : SameOutcome Eq a a := by
  cases a with
  | error f => exact .error f
  | ok a => exact .ok rfl

section Matching

variable {S α β γ δ : Type} {F : S → S → Prop} {R : α → β → Prop} {Q : γ → δ → Prop}
  {x : ExceptT Fault (StateM S) α} {y : ExceptT Fault (StateM S) β}

/-- From related states the computations come to the same, and leave related states. -/
def Matches (F : S → S → Prop) (R : α → β → Prop) (x : ExceptT Fault (StateM S) α)
    (y : ExceptT Fault (StateM S) β) : Prop :=
  ∀ s t, F s t → SameOutcome R (Id.run (StateT.run (ExceptT.run x) s)).1
      (Id.run (StateT.run (ExceptT.run y) t)).1 ∧
    F (Id.run (StateT.run (ExceptT.run x) s)).2 (Id.run (StateT.run (ExceptT.run y) t)).2

theorem matches_pure {a : α} {b : β} (h : R a b) :
    Matches F R (pure a : ExceptT Fault (StateM S) α) (pure b) :=
  fun _ _ hst => ⟨.ok h, hst⟩

theorem matches_throw (f : Fault) :
    Matches F R (throw f : ExceptT Fault (StateM S) α) (throw f : ExceptT Fault (StateM S) β) :=
  fun _ _ hst => ⟨.error f, hst⟩

theorem Matches.bind {f : α → ExceptT Fault (StateM S) γ} {g : β → ExceptT Fault (StateM S) δ}
    (hxy : Matches F R x y) (hfg : ∀ a b, R a b → Matches F Q (f a) (g b)) :
    Matches F Q (x >>= f) (y >>= g) := by
  intro s t hst
  have hends := hxy s t hst
  simp only [Bind.bind, ExceptT.bind, ExceptT.mk, ExceptT.run, StateT.bind, StateT.run, Id.run]
    at hends ⊢
  cases hx : x s with
  | mk r s' =>
    cases hy : y t with
    | mk r' t' =>
      rw [hx, hy] at hends
      obtain ⟨hr, hst'⟩ := hends
      cases hr with
      | ok hab => exact hfg _ _ hab s' t' hst'
      | error f => exact ⟨.error f, hst'⟩

theorem Matches.tryCatch {handle : Fault → ExceptT Fault (StateM S) α}
    {handle' : Fault → ExceptT Fault (StateM S) β} (hxy : Matches F R x y)
    (hhandle : ∀ f, Matches F R (handle f) (handle' f)) :
    Matches F R (tryCatch x handle) (tryCatch y handle') := by
  intro s t hst
  have hends := hxy s t hst
  simp only [MonadExcept.tryCatch, tryCatchThe, MonadExceptOf.tryCatch, ExceptT.tryCatch, ExceptT.mk,
    ExceptT.run, StateT.run, Bind.bind, StateT.bind, Id.run] at hends ⊢
  cases hx : x s with
  | mk r s' =>
    cases hy : y t with
    | mk r' t' =>
      rw [hx, hy] at hends
      obtain ⟨hr, hst'⟩ := hends
      cases hr with
      | ok hab => exact ⟨.ok hab, hst'⟩
      | error f => exact hhandle f s' t' hst'

end Matching

namespace Run

variable {α β : Type} {R : α → β → Prop}

/-- The runs come to the same from whatever journals. -/
abbrev Matches (x : Run α) (R : α → β → Prop) (y : Run β) : Prop :=
  LintRepair.Matches (fun _ _ => True) R x y

theorem Speaks.matches {x : Run α} (hx : x.Speaks) : x.Matches Eq x := by
  obtain ⟨r, entries, hr⟩ := hx
  intro j k _
  rw [hr j, hr k]
  exact ⟨sameOutcome_refl r, trivial⟩

theorem matches_release (n m : Nat) : (Run.release n).Matches Eq (Run.release m) :=
  fun _ _ _ => ⟨.ok rfl, trivial⟩

end Run

variable {σ : Type} {shop : Workshop σ} {d d' : Document σ} {budget : Budget} {st : PassState}

namespace PassState

theorem invoke_same (hd : d.Same d') (shop : Workshop σ) (st : PassState) (v : Violation) :
    st.invoke shop d v = st.invoke shop d' v := by
  unfold invoke
  rw [hd.1, hd.2]

theorem work_same (hd : d.Same d') (shop : Workshop σ) (budget : Budget) (st : PassState)
    (vs : List Violation) : st.work shop d budget vs = st.work shop d' budget vs := by
  induction vs generalizing st with
  | nil => rfl
  | cons v rest ih =>
    rw [work, work, invoke_same hd]
    simp only [ih]

theorem rounds_same (hd : d.Same d') (shop : Workshop σ) (budget : Budget) (st : PassState)
    (vs : List Violation) : st.rounds shop d budget vs = st.rounds shop d' budget vs := by
  induction hn : vs.length using Nat.strongRecOn generalizing vs st with
  | _ n ih =>
    by_cases hne : vs = []
    · rw [hne, rounds_nil, rounds_nil]
    cases hsplit : d.tree.resolveConflicts vs st.claimed with
    | error f => rw [rounds_of_error hne hsplit, rounds_of_error hne (hd.1 ▸ hsplit)]
    | ok split =>
      rw [rounds_of_ok hne hsplit, rounds_of_ok hne (hd.1 ▸ hsplit), work_same hd]
      have hlength := Tree.length_resolveConflicts hsplit
      split
      · rfl
      · next hsome =>
        have hpos := List.length_pos_iff.mpr hsome
        exact congrArg _ (funext fun next => ih _ (by lia) next _ rfl)

end PassState

/-- Outcomes that differ in nothing but the number of the file. -/
inductive PassOutcome.Same : PassOutcome σ → PassOutcome σ → Prop where
  | committed {d d' : Document σ} (h : d.Same d') : Same (.committed d) (.committed d')
  | stopped (reason : StopReason) : Same (.stopped reason) (.stopped reason)

theorem Language.read_matches (language : Language σ) (text : Text) (file : String) :
    (language.read text file).Matches Document.Same (language.read text file) := by
  unfold Language.read
  refine (Run.speaks_lift _).matches.bind fun x _ h => ?_
  subst h
  exact fun _ _ _ => ⟨.ok ⟨rfl, rfl⟩, trivial⟩

theorem tryBatch_matches (language : Language σ) (t : Tree) (sets : List EditSet)
    (mode : RenderMode) : (tryBatch language t sets mode).Matches (SameOutcome Document.Same)
      (tryBatch language t sets mode) := by
  intro j k _
  obtain ⟨j', hj, -⟩ := tryBatch_yields language t sets mode j
  obtain ⟨k', hk, -⟩ := tryBatch_yields language t sets mode k
  unfold Run.Yields at hj hk
  rw [hj, hk]
  cases language.batch t sets mode with
  | error f => exact ⟨.ok (.error f), trivial⟩
  | ok file => exact ⟨.ok (.ok ⟨rfl, rfl⟩), trivial⟩

theorem runPass_matches (hd : d.Same d') (shop : Workshop σ) (budget : Budget)
    (requested : RenderMode) (st : PassState) : (runPass shop d budget requested st).Matches
      (fun x y => x.1 = y.1 ∧ x.2.Same y.2) (runPass shop d' budget requested st) := by
  unfold runPass
  rw [PassState.rounds_same hd, hd.1]
  refine (PassState.speaks_rounds ..).matches.bind ?_
  rintro final _ rfl
  refine (Run.speaks_lift _).matches.bind ?_
  rintro selection _ rfl
  split
  · exact matches_pure ⟨rfl, .stopped _⟩
  refine (tryBatch_matches _ _ _ _).bind fun result result' hresult => ?_
  cases hresult with
  | error f =>
    dsimp only
    refine Matches.bind (Run.speaks_log _).matches fun _ _ _ => ?_
    exact matches_pure ⟨rfl, .stopped _⟩
  | ok hnext =>
    dsimp only
    split
    · refine Matches.bind (Run.speaks_log _).matches fun _ _ _ => ?_
      exact matches_pure ⟨rfl, .committed hnext⟩
    · exact matches_pure ⟨rfl, .committed hnext⟩

/-- The checks come to the same, whenever they run and whatever the number of the file. -/
def Analyzer.Steady (a : Analyzer σ) : Prop :=
  ∀ (d d' : Document σ) (rules : List String), d.Same d' →
    (a.runChecks d rules).Matches Eq (a.runChecks d' rules)

namespace Engine

variable {e : Engine σ} {options : RepairOptions} {p p' : Progress σ}

theorem Progress.Same.close {outcome outcome' : PassOutcome σ} (hp : p.Same p')
    (houtcome : outcome.Same outcome') (st : PassState) :
    (p.close st outcome).Same (p'.close st outcome') := by
  cases houtcome with
  | committed h => exact ⟨h, rfl, congrArg (· ++ _) hp.passes, hp.remaining⟩
  | stopped reason => exact ⟨hp.document, rfl, congrArg (· ++ _) hp.passes, hp.remaining⟩

theorem Progress.Same.analyzed (hp : p.Same p') (number : Nat) (remaining : List Violation) :
    (p.analyzed number remaining).Same (p'.analyzed number remaining) where
  document := hp.document
  statistics := by rw [Progress.analyzed, Progress.analyzed, hp.statistics]
  passes := hp.passes
  remaining := rfl

theorem makePass_matches (hp : p.Same p') (options : RepairOptions) (number : Nat) :
    (e.makePass options number p).Matches (fun x y => x.1.Same y.1 ∧ x.2 = y.2)
      (e.makePass options number p') := by
  have hopening : p.opening options.budget number = p'.opening options.budget number := by
    rw [Progress.opening, Progress.opening, hp.document.1, hp.statistics, hp.remaining]
  unfold makePass
  rw [hopening, hp.document.1]
  refine (runPass_matches hp.document _ _ _ _).bind ?_
  rintro ⟨st, outcome⟩ ⟨_, outcome'⟩ ⟨rfl, houtcome⟩
  refine Matches.bind (Run.speaks_log _).matches fun _ _ _ => ?_
  refine matches_pure ⟨hp.close houtcome st, ?_⟩
  cases houtcome with
  | committed h => rfl
  | stopped reason => rfl

theorem conclude_matches (habort : options.abortAfter = none) (hp : p.Same p') (number : Nat) :
    (e.conclude options number p).Matches (fun x y => x.1.Same y.1 ∧ x.2 = y.2)
      (e.conclude options number p') := by
  have hlook : (p.look options).Matches Eq (p'.look options) := by
    unfold Progress.look interrupted
    rw [habort, hp.remaining]
    split
    · exact matches_pure rfl
    · exact matches_pure rfl
  refine hlook.bind ?_
  rintro aborted _ rfl
  rw [Progress.verdict_eq hp.remaining fun id => by rw [hp.statistics]]
  split
  · exact matches_pure ⟨hp, rfl⟩
  · exact makePass_matches hp options number

theorem turn_matches (he : e.analyzer.Steady) (habort : options.abortAfter = none) (hp : p.Same p')
    (rules : List String) (number : Nat) : (e.turn rules options number p).Matches
      (fun x y => x.1.Same y.1 ∧ x.2 = y.2) (e.turn rules options number p') := by
  rw [turn_eq, turn_eq]
  refine (he _ _ rules hp.document).bind ?_
  rintro remaining _ rfl
  exact conclude_matches habort (hp.analyzed number remaining) number

theorem releaseUnless_matches (n m : Nat) (d d' : Document σ) :
    (releaseUnless n d).Matches Eq (releaseUnless m d') := by
  unfold releaseUnless
  split <;> split <;> exact fun _ _ _ => ⟨.ok rfl, trivial⟩

theorem turns_matches (he : e.analyzer.Steady) (habort : options.abortAfter = none) (hp : p.Same p')
    (rules : List String) (initial initial' fuel number : Nat) :
    (e.turns rules options initial fuel number p).Matches (fun x y => x.1.Same y.1 ∧ x.2 = y.2)
      (e.turns rules options initial' fuel number p') := by
  induction fuel generalizing number p p' with
  | zero => exact (releaseUnless_matches _ _ _ _).bind fun _ _ _ => matches_throw _
  | succ fuel ih =>
    unfold turns
    refine Matches.bind (.tryCatch (turn_matches he habort hp rules number) fun f =>
      (releaseUnless_matches _ _ _ _).bind fun _ _ _ => matches_throw f) ?_
    rintro ⟨next, stop⟩ ⟨next', _⟩ ⟨hnext, rfl⟩
    cases stop with
    | some reason => exact matches_pure ⟨hnext, rfl⟩
    | none => exact (releaseUnless_matches _ _ _ _).bind fun _ _ _ => ih hnext (number + 1)

theorem repair_matches (he : e.analyzer.Steady) (habort : options.abortAfter = none)
    {d d' : Document σ} (hd : d.Same d') (ids : List String) :
    (e.repair d ids options).Matches SameResult (e.repair d' ids options) := by
  unfold repair
  refine Matches.bind (Run.speaks_lift _).matches ?_
  rintro rules _ rfl
  have hstart : (start d rules).Same (start d' rules) := ⟨hd, rfl, rfl, rfl⟩
  refine (turns_matches he habort hstart _ _ _ _ _).bind ?_
  rintro ⟨p, reason⟩ ⟨p', _⟩ ⟨hp, rfl⟩
  rw [hd.1]
  exact matches_pure (hp.result ..)

/-- A text is repaired to the same result from every journal. -/
theorem repairSource_matches (he : e.analyzer.Steady) (habort : options.abortAfter = none)
    (text : Text) (file : String) (ids : List String) :
    (e.repairSource text file ids options).Matches SameResult
      (e.repairSource text file ids options) := by
  unfold repairSource
  refine Matches.bind (Run.speaks_lift _).matches ?_
  rintro rules _ rfl
  refine (Language.read_matches _ _ _).bind fun d d' hd => ?_
  refine Matches.bind (.tryCatch (repair_matches he habort hd rules) fun f =>
    (Run.matches_release _ _).bind fun _ _ _ => matches_throw f) fun r r' hr => ?_
  split <;> split <;> exact fun _ _ _ => ⟨.ok hr, trivial⟩

end Engine

theorem Catalog.steady (catalog : Catalog σ) : (Catalog.analyzer catalog).Steady := by
  rintro ⟨tree, parsed, number⟩ ⟨_, _, number'⟩ ids ⟨rfl, rfl⟩
  exact (speaks_runChecks catalog _ ids).matches

/-! ## Things thrown that tell their wording -/

section Worded

variable {τ : Type} [Throwable τ]

/-- The processor throws the bare wording of what it throws. -/
def Processor.worded (p : Processor σ τ) : Processor σ where
  ruleId := p.ruleId
  name := p.name
  description := p.description
  targeted := p.targeted
  apply c := (p.apply c).mapError fun thrown =>
    ((Throwable.wording thrown).toOption.map Thrown.text).getD .unnamed

def Processors.worded (ps : Processors σ τ) : Processors σ where
  entries := ps.entries.map fun entry => (entry.1, entry.2.worded)
  frozen := ps.frozen

/-- Everything that the processors throw can be asked for its wording. -/
def Processors.Worded (ps : Processors σ τ) : Prop :=
  ∀ id p, ps.get? id = some p → ∀ c thrown, p.apply c = .error thrown →
    ∃ wording, Throwable.wording thrown = .ok wording

def Engine.worded (e : Engine σ τ) : Engine σ := ⟨e.language, e.analyzer, Processors.worded e.processors⟩

variable {ps : Processors σ τ} {language : Language σ}

theorem Processors.get?_worded (ps : Processors σ τ) (id : String) :
    ps.worded.get? id = (ps.get? id).map Processor.worded := by
  unfold Register.get? worded
  induction ps.entries with
  | nil => rfl
  | cons entry rest ih =>
    rw [List.map_cons, List.lookup_cons, List.lookup_cons]
    split
    · rfl
    · exact ih

theorem PassState.invoke_worded (h : ps.Worded) (d : Document σ) (st : PassState) (v : Violation) :
    st.invoke ⟨language, ps.worded⟩ d v = st.invoke ⟨language, ps⟩ d v := by
  unfold invoke
  dsimp only
  rw [Processors.get?_worded]
  cases hget : ps.get? v.ruleId with
  | none => rfl
  | some p =>
    simp only [Option.map_some, Processor.worded]
    generalize hcontext : RepairContext.mk d.tree d.parsed v.node v _ = context
    cases happly : p.apply context with
    | error thrown =>
      obtain ⟨wording, hwording⟩ := h _ p hget context thrown happly
      simp only [Except.mapError, hwording, crashOn]
      rfl
    | ok outcome => cases outcome <;> rfl

theorem PassState.work_worded (h : ps.Worded) (d : Document σ) (budget : Budget) (st : PassState)
    (vs : List Violation) :
    st.work ⟨language, ps.worded⟩ d budget vs = st.work ⟨language, ps⟩ d budget vs := by
  induction vs generalizing st with
  | nil => rfl
  | cons v rest ih =>
    rw [work, work, invoke_worded h]
    simp only [ih]

theorem PassState.rounds_worded (h : ps.Worded) (d : Document σ) (budget : Budget) (st : PassState)
    (vs : List Violation) :
    st.rounds ⟨language, ps.worded⟩ d budget vs = st.rounds ⟨language, ps⟩ d budget vs := by
  induction hn : vs.length using Nat.strongRecOn generalizing vs st with
  | _ n ih =>
    by_cases hne : vs = []
    · rw [hne, rounds_nil, rounds_nil]
    cases hsplit : d.tree.resolveConflicts vs st.claimed with
    | error f => rw [rounds_of_error hne hsplit, rounds_of_error hne hsplit]
    | ok split =>
      rw [rounds_of_ok hne hsplit, rounds_of_ok hne hsplit, work_worded h]
      have hlength := Tree.length_resolveConflicts hsplit
      split
      · rfl
      · next hsome =>
        have hpos := List.length_pos_iff.mpr hsome
        exact congrArg _ (funext fun next => ih _ (by lia) next _ rfl)

theorem runPass_worded (h : ps.Worded) (d : Document σ) (budget : Budget) (requested : RenderMode)
    (st : PassState) : runPass ⟨language, ps.worded⟩ d budget requested st =
      runPass ⟨language, ps⟩ d budget requested st := by
  unfold runPass
  rw [PassState.rounds_worded h]

namespace Engine

variable {e : Engine σ τ} {rules : List String} {p : Progress σ} {j j₀ : Journal} {number : Nat}

theorem turn_worded (h : e.processors.Worded) (rules : List String) (options : RepairOptions)
    (number : Nat) (p : Progress σ) :
    e.worded.turn rules options number p = e.turn rules options number p := by
  unfold turn worded
  simp only [runPass_worded h]

theorem turns_worded (h : e.processors.Worded) (rules : List String) (options : RepairOptions)
    (initial fuel number : Nat) (p : Progress σ) :
    e.worded.turns rules options initial fuel number p =
      e.turns rules options initial fuel number p := by
  induction fuel generalizing number p with
  | zero => rfl
  | succ fuel ih =>
    unfold turns
    simp only [turn_worded h, ih]

theorem reached_worded_iff (h : e.processors.Worded) {d : Document σ} :
    e.worded.Reached rules options d j₀ number p j ↔ e.Reached rules options d j₀ number p j := by
  constructor
  · intro hreached
    induction hreached with
    | start => exact .start
    | next _ hturn hrelease ih => exact .next ih (turn_worded h .. ▸ hturn) hrelease
  · intro hreached
    induction hreached with
    | start => exact .start
    | next _ hturn hrelease ih => exact .next ih ((turn_worded h ..).symm ▸ hturn) hrelease

theorem turnBound_worded (e : Engine σ τ) (options : RepairOptions) :
    e.worded.turnBound options = e.turnBound options := by
  simp only [turnBound, worded, Processors.worded, List.length_map]

theorem validateRules_worded (e : Engine σ τ) (ids : List String) :
    e.worded.validateRules ids = e.validateRules ids := by
  unfold validateRules Register.has worded
  simp only [Processors.get?_worded, Option.isSome_map]
  rfl

/-- Where everything thrown tells its wording, a run goes as if the bare wording were thrown. -/
theorem repair_worded (h : e.processors.Worded) (d : Document σ) (ids : List String)
    (options : RepairOptions) : e.worded.repair d ids options = e.repair d ids options := by
  have hlength : e.worded.processors.entries.length = e.processors.entries.length := by
    simp only [worded, Processors.worded, List.length_map]
  unfold repair
  simp only [validateRules_worded, turns_worded h, hlength]

theorem repairSource_worded (h : e.processors.Worded) (text : Text) (file : String)
    (ids : List String) (options : RepairOptions) :
    e.worded.repairSource text file ids options = e.repairSource text file ids options := by
  unfold repairSource
  simp only [validateRules_worded, repair_worded h]
  rfl

end Engine

end Worded

end LintRepair
