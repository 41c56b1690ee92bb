import LintRepair.Proofs.Repair.Selection
import LintRepair.Proofs.Repair.Yields
import LintRepair.Repair.Pass

/-!
# The rounds of a pass

What a pass does with its violations, as a list of rounds: which ones were accepted together, and
what came of each. The round loop yields exactly the states that such a list leads to.
-/
namespace LintRepair

/-- What came of an accepted violation. -/
inductive Fate where
  | skipped
  | declined
  | crashed (message : String)
  | produced (set : EditSet)

structure Handling where
  violation : Violation
  fate : Fate

namespace Handling

def skipped? (h : Handling) : Option Violation :=
  match h.fate with
  | .skipped => some h.violation
  | _ => none

def declined? (h : Handling) : Option Violation :=
  match h.fate with
  | .declined => some h.violation
  | _ => none

def crash? (pass : Nat) (h : Handling) : Option CrashRecord :=
  match h.fate with
  | .crashed message => some ⟨h.violation.ruleId, h.violation.file, h.violation.location.line,
      h.violation.location.column, h.violation.nodeKind, pass, message⟩
  | _ => none

def set? (h : Handling) : Option EditSet :=
  match h.fate with
  | .produced set => some set
  | _ => none

end Handling

/-- The edit sets that came of some violations. -/
def producedBy (hs : List Handling) : List EditSet := hs.filterMap Handling.set?

/-- The nodes that these edit sets touch. -/
def touchedBy (hs : List Handling) : List Handle := (producedBy hs).flatMap EditSet.touched

theorem producedBy_append (hs gs : List Handling) :
    producedBy (hs ++ gs) = producedBy hs ++ producedBy gs := List.filterMap_append

theorem touchedBy_append (hs gs : List Handling) :
    touchedBy (hs ++ gs) = touchedBy hs ++ touchedBy gs := by
  rw [touchedBy, producedBy_append, List.flatMap_append, touchedBy, touchedBy]

/-- The bookkeeping of a pass with the fates of further violations filed. -/
def Pass.filed (p : Pass) (hs : List Handling) : Pass :=
  { p with
    skipped := p.skipped ++ hs.filterMap Handling.skipped?
    declined := p.declined ++ hs.filterMap Handling.declined?
    crashes := p.crashes ++ hs.filterMap (Handling.crash? p.number)
    produced := p.produced ++ producedBy hs }

theorem Pass.filed_nil (p : Pass) : p.filed [] = p := by
  simp [filed, producedBy]

theorem Pass.filed_append (p : Pass) (hs gs : List Handling) :
    (p.filed hs).filed gs = p.filed (hs ++ gs) := by
  simp [filed, producedBy, List.append_assoc]

section

variable {σ : Type} (shop : Workshop σ) (d : Document σ) (budget : Budget)

/-- What the processor of a violation makes of it. -/
def reply (v : Violation) : Fate :=
  match shop.processors.get? v.ruleId with
  | none => .crashed "no processor registered"
  | some processor =>
    match processor.apply
      ⟨d.tree, d.parsed, v.node, v, shop.language.fragments d.tree.filePath⟩ with
    | .error thrown => .crashed thrown.message
    | .ok (.crashed cause) => .crashed cause
    | .ok (.declined _) => .declined
    | .ok (.applied edits) =>
      if edits.isEmpty then .declined
      else match PassState.problem? d.tree edits with
        | some problem => .crashed problem
        | none => .produced ⟨v, edits, processor.targeted⟩

namespace PassState

/-- A state with the fate of one more violation filed. -/
def settle (st : PassState) (h : Handling) : PassState where
  pass := st.pass.filed [h]
  statistics :=
    match h.fate with
    | .skipped | .produced _ => st.statistics
    | .declined => st.statistics.addDeclined h.violation.ruleId
    | .crashed message => st.statistics.addCrash ⟨h.violation.ruleId, h.violation.file,
        h.violation.location.line, h.violation.location.column, h.violation.nodeKind,
        st.pass.number, message⟩
  claimed := st.claimed ++ touchedBy [h]

theorem settle_declined (st : PassState) (v : Violation) :
    st.settle ⟨v, .declined⟩ = st.decline v := by
  simp [settle, decline, Pass.filed, producedBy, touchedBy, Handling.skipped?, Handling.declined?,
    Handling.crash?, Handling.set?]

theorem settle_produced (st : PassState) (v : Violation) (set : EditSet) :
    st.settle ⟨v, .produced set⟩ = st.produce set := by
  simp [settle, produce, Pass.filed, producedBy, touchedBy, Handling.skipped?, Handling.declined?,
    Handling.crash?, Handling.set?]

theorem settle_skipped (st : PassState) (v : Violation) : st.settle ⟨v, .skipped⟩ =
    { st with pass := { st.pass with skipped := st.pass.skipped ++ [v] } } := by
  simp [settle, Pass.filed, producedBy, touchedBy, Handling.skipped?, Handling.declined?,
    Handling.crash?, Handling.set?]

theorem crash_yields (st : PassState) (v : Violation) (message : String) (j : Journal) :
    ∃ j', (st.crash v message).Yields j (st.settle ⟨v, .crashed message⟩) j' := by
  refine ⟨_, Run.yields_bind.mpr ⟨(), _, Run.yields_log.mpr rfl, Run.yields_pure.mpr ⟨?_, rfl⟩⟩⟩
  simp [settle, Pass.filed, producedBy, touchedBy, Handling.skipped?, Handling.declined?,
    Handling.crash?, Handling.set?]

theorem invoke_yields (st : PassState) (v : Violation) (j : Journal) :
    ∃ j', (st.invoke shop d v).Yields j (st.settle ⟨v, reply shop d v⟩) j' := by
  unfold invoke reply
  cases shop.processors.get? v.ruleId with
  | none => exact crash_yields ..
  | some processor =>
    dsimp only
    cases processor.apply
      ⟨d.tree, d.parsed, v.node, v, shop.language.fragments d.tree.filePath⟩ with
    | error thrown => exact crash_yields ..
    | ok outcome =>
      cases outcome with
      | crashed cause => exact crash_yields ..
      | declined reason => exact ⟨j, Run.yields_pure.mpr ⟨(settle_declined ..).symm, rfl⟩⟩
      | applied edits =>
        dsimp only
        cases edits.isEmpty with
        | true => exact ⟨j, Run.yields_pure.mpr ⟨(settle_declined ..).symm, rfl⟩⟩
        | false =>
          cases problem? d.tree edits with
          | some problem => exact crash_yields ..
          | none => exact ⟨j, Run.yields_pure.mpr ⟨(settle_produced ..).symm, rfl⟩⟩

/-- The fate of a violation at its turn: its rule has no repair left, or its processor decides. -/
def fate (st : PassState) (v : Violation) : Fate :=
  if budget.repairsPerRule.reached (st.statistics.applied v.ruleId + st.pass.producedFor v.ruleId)
  then .skipped
  else reply shop d v

/-- What comes of accepted violations, taken one after the other. -/
def handle (st : PassState) : List Violation → List Handling
  | [] => []
  | v :: rest =>
    let h : Handling := ⟨v, st.fate shop d budget v⟩
    h :: (st.settle h).handle rest

theorem map_violation_handle (st : PassState) (vs : List Violation) :
    (st.handle shop d budget vs).map (·.violation) = vs := by
  induction vs generalizing st with
  | nil => rfl
  | cons v rest ih => rw [handle, List.map_cons, ih]

theorem work_yields (st : PassState) (vs : List Violation) (j : Journal) :
    ∃ j', (st.work shop d budget vs).Yields j
      ((st.handle shop d budget vs).foldl settle st) j' := by
  induction vs generalizing st j with
  | nil => exact ⟨j, Run.yields_pure.mpr ⟨rfl, rfl⟩⟩
  | cons v rest ih =>
    rw [handle, List.foldl_cons, work]
    unfold fate
    split
    · rw [settle_skipped]
      exact ih _ j
    · obtain ⟨k, hk⟩ := invoke_yields shop d st v j
      obtain ⟨j', hj⟩ := ih (st.settle ⟨v, reply shop d v⟩) k
      exact ⟨j', Run.yields_bind.mpr ⟨_, k, hk, hj⟩⟩

theorem fate_of_mem_handle {st : PassState} {vs : List Violation} {h : Handling}
    (hh : h ∈ st.handle shop d budget vs) :
    h.fate = .skipped ∨ h.fate = reply shop d h.violation := by
  induction vs generalizing st with
  | nil => exact absurd hh List.not_mem_nil
  | cons v rest ih =>
    rw [handle] at hh
    rcases List.mem_cons.mp hh with rfl | hh
    · simp only [fate]
      split
      · exact .inl rfl
      · exact .inr rfl
    · exact ih hh

theorem foldl_settle_pass (st : PassState) (hs : List Handling) :
    (hs.foldl settle st).pass = st.pass.filed hs := by
  induction hs generalizing st with
  | nil => exact st.pass.filed_nil.symm
  | cons h rest ih =>
    rw [List.foldl_cons, ih, settle, Pass.filed_append]
    rfl

theorem foldl_settle_claimed (st : PassState) (hs : List Handling) :
    (hs.foldl settle st).claimed = st.claimed ++ touchedBy hs := by
  induction hs generalizing st with
  | nil => simp [touchedBy, producedBy]
  | cons h rest ih =>
    rw [List.foldl_cons, ih, settle, List.append_assoc, ← touchedBy_append]
    rfl

/-- The state in which the accepted violations of a round are worked on. -/
def enter (st : PassState) (split : Split Violation) : PassState :=
  { st with pass := { st.pass with
    deferred := split.waiting
    accepted := st.pass.accepted ++ split.taken } }

end PassState

open PassState

/-- Rounds over some violations lead from one state to another. -/
inductive Rounds : List Violation → PassState → List (List Handling) → PassState → Prop where
  | done (st : PassState) : Rounds [] st [] st
  | stuck {vs st split} (hne : vs ≠ []) (hsplit : d.tree.resolveConflicts vs st.claimed = .ok split)
      (hnone : split.taken = []) : Rounds vs st [] (st.enter split)
  | round {vs st split rounds final} (hne : vs ≠ [])
      (hsplit : d.tree.resolveConflicts vs st.claimed = .ok split) (hsome : split.taken ≠ [])
      (hrest : Rounds split.waiting
        (((st.enter split).handle shop d budget split.taken).foldl settle (st.enter split))
        rounds final) :
      Rounds vs st ((st.enter split).handle shop d budget split.taken :: rounds) final

namespace PassState

variable {shop d budget} {vs : List Violation} {st final : PassState}
  {split : Split Violation}

section Unfolding

variable {τ : Type} [Throwable τ] {shop : Workshop σ τ}

theorem rounds_nil : st.rounds shop d budget [] = pure st := by
  rw [rounds]
  rfl

theorem rounds_of_error {f : Fault} (hne : vs ≠ [])
    (h : d.tree.resolveConflicts vs st.claimed = .error f) :
    st.rounds shop d budget vs = throw f := by
  rw [rounds, if_neg (by simpa using hne)]
  split
  · next f' h' =>
    rw [h] at h'
    cases h'
    rfl
  · next h' =>
    rw [h] at h'
    cases h'

theorem rounds_of_ok (hne : vs ≠ [])
    (h : d.tree.resolveConflicts vs st.claimed = .ok split) :
    st.rounds shop d budget vs = if split.taken = [] then pure (st.enter split) else
      (st.enter split).work shop d budget split.taken >>= rounds shop d budget split.waiting := by
  rw [rounds, if_neg (by simpa using hne)]
  split
  · next h' =>
    rw [h] at h'
    cases h'
  · next s h' =>
    rw [h] at h'
    obtain rfl := Except.ok.inj h'
    by_cases hnone : split.taken = []
    · rw [dif_pos hnone, if_pos hnone]
      simp only [enter, hnone, List.append_nil]
    · rw [dif_neg hnone, if_neg hnone]
      rfl

end Unfolding

end PassState

variable {shop d budget} {vs : List Violation} {st final : PassState}
  {rounds : List (List Handling)} {j j' : Journal}

theorem Rounds.yields (h : Rounds shop d budget vs st rounds final) (j : Journal) :
    ∃ j', (st.rounds shop d budget vs).Yields j final j' := by
  induction h generalizing j with
  | done st => exact ⟨j, by rw [rounds_nil, Run.yields_pure]; exact ⟨rfl, rfl⟩⟩
  | stuck hne hsplit hnone =>
    rw [rounds_of_ok hne hsplit, if_pos hnone]
    exact ⟨j, Run.yields_pure.mpr ⟨rfl, rfl⟩⟩
  | round hne hsplit hsome hrest ih =>
    rw [rounds_of_ok hne hsplit, if_neg hsome]
    obtain ⟨k, hk⟩ := work_yields ..
    obtain ⟨j', hj⟩ := ih k
    exact ⟨j', Run.yields_bind.mpr ⟨_, k, hk, hj⟩⟩

theorem exists_rounds_of_yields (h : (st.rounds shop d budget vs).Yields j final j') :
    ∃ rounds, Rounds shop d budget vs st rounds final := by
  induction hn : vs.length using Nat.strongRecOn generalizing vs st j with
  | _ n ih =>
    by_cases hne : vs = []
    · subst hne
      rw [rounds_nil, Run.yields_pure] at h
      obtain ⟨rfl, -⟩ := h
      exact ⟨[], .done st⟩
    · cases hsplit : d.tree.resolveConflicts vs st.claimed with
      | error f =>
        rw [rounds_of_error hne hsplit] at h
        exact absurd h Run.not_yields_throw
      | ok split =>
        rw [rounds_of_ok hne hsplit] at h
        by_cases hnone : split.taken = []
        · rw [if_pos hnone, Run.yields_pure] at h
          obtain ⟨rfl, -⟩ := h
          exact ⟨[], .stuck hne hsplit hnone⟩
        · rw [if_neg hnone, Run.yields_bind] at h
          obtain ⟨next, k, hwork, hrest⟩ := h
          obtain ⟨k', hk⟩ := work_yields shop d budget (st.enter split) split.taken j
          rw [hwork.unique hk] at hrest
          have hlen := Tree.length_resolveConflicts hsplit
          have hpos := List.length_pos_iff.mpr hnone
          obtain ⟨rounds, hrounds⟩ := ih _ (by lia) hrest rfl
          exact ⟨_, .round hne hsplit hnone hrounds⟩

namespace Rounds

variable (h : Rounds shop d budget vs st rounds final)
include h

/-- Every fate of the rounds is filed, and nothing else changes but what was accepted and what is
deferred. -/
theorem pass_eq : final.pass = { st.pass.filed rounds.flatten with
    accepted := st.pass.accepted ++ rounds.flatten.map (·.violation)
    deferred := final.pass.deferred } := by
  induction h with
  | done st => simp [Pass.filed, producedBy]
  | stuck _ _ hnone => simp [Pass.filed, producedBy, enter, hnone]
  | round _ _ _ _ ih =>
    rw [ih, foldl_settle_pass, Pass.filed_append, List.flatten_cons, List.map_append,
      map_violation_handle, ← List.append_assoc]
    rfl

theorem perm (hnil : vs = [] → st.pass.deferred = []) :
    (rounds.flatten.map (·.violation) ++ final.pass.deferred).Perm vs := by
  induction h with
  | done st => simp [hnil rfl]
  | stuck _ hsplit hnone =>
    have hperm := Tree.perm_resolveConflicts hsplit
    rwa [hnone] at hperm
  | round _ hsplit _ _ ih =>
    rw [List.flatten_cons, List.map_append, map_violation_handle, List.append_assoc]
    refine ((ih ?_).append_left _).trans (Tree.perm_resolveConflicts hsplit)
    intro hw
    rw [foldl_settle_pass]
    exact hw

theorem fate_of_mem {g : Handling} (hg : g ∈ rounds.flatten) :
    g.fate = .skipped ∨ g.fate = reply shop d g.violation := by
  induction h with
  | done st => exact absurd hg List.not_mem_nil
  | stuck => exact absurd hg List.not_mem_nil
  | round _ _ _ _ ih =>
    rw [List.flatten_cons] at hg
    rcases List.mem_append.mp hg with hg | hg
    · exact fate_of_mem_handle shop d budget hg
    · exact ih hg

end Rounds

end
end LintRepair
