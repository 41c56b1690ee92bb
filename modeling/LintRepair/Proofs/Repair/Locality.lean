import LintRepair.Proofs.Repair.Conservation
import LintRepair.Proofs.Repair.Landing
import LintRepair.Proofs.Repair.Resilience

/-!
# Local repairs

A processor is local when it edits nothing but the node it is asked about and what lies inside. The
nodes that one pass asks about with success lie apart, so nothing inside one of them meets anything
inside another: of local repairs all are selected, and if each is a single edit their batch is made.
-/
namespace LintRepair

variable {σ : Type} {shop : Workshop σ} {d d' : Document σ} {budget : Budget}
  {requested : RenderMode} {vs : List Violation} {st st' final : PassState}
  {rounds : List (List Handling)} {outcome : PassOutcome σ} {j j' j₀ : Journal}

/-- On this file the processor edits nothing but the node it is asked about and what lies inside. -/
def Processor.LocalOn (p : Processor σ) (d : Document σ) (fragments : Fragments) : Prop :=
  ∀ v edits, p.apply ⟨d.tree, d.parsed, v.node, v, fragments⟩ = .ok (.applied edits) →
    ∀ edit ∈ edits, d.tree.Covers v.node edit.touched

/-- On this file the processor makes one edit at a time. -/
def Processor.SingleOn (p : Processor σ) (d : Document σ) (fragments : Fragments) : Prop :=
  ∀ v edits, p.apply ⟨d.tree, d.parsed, v.node, v, fragments⟩ = .ok (.applied edits) →
    ∃ edit, edits = [edit]

/-- The set is a single edit, on the flagged node or inside it, and not on the root. -/
def EditSet.SingleInner (s : EditSet) (t : Tree) : Prop :=
  ∃ edit, s.edits = [edit] ∧ t.Covers s.violation.node edit.touched ∧ edit.touched ≠ Tree.root

namespace Workshop

/-- Every processor is local on this file. -/
def LocalOn (shop : Workshop σ) (d : Document σ) : Prop :=
  ∀ id p, shop.processors.get? id = some p → p.LocalOn d (shop.language.fragments d.tree.filePath)

def SingleOn (shop : Workshop σ) (d : Document σ) : Prop :=
  ∀ id p, shop.processors.get? id = some p → p.SingleOn d (shop.language.fragments d.tree.filePath)

end Workshop

theorem covers_of_reply (hlocal : shop.LocalOn d) {v : Violation} {s : EditSet}
    (h : reply shop d v = .produced s) {x : Handle} (hx : x ∈ s.touched) :
    d.tree.Covers s.violation.node x := by
  obtain ⟨hv, ⟨p, hp, -, happly⟩, -⟩ := reply_produced h
  rw [hv]
  rcases EditSet.mem_touched_iff.mp hx with rfl | ⟨edit, hedit, rfl⟩
  · rw [hv]
    exact d.tree.covers_refl _
  · exact hlocal _ p hp v _ happly edit hedit

namespace Rounds

theorem exists_reply (h : Rounds shop d budget vs st rounds final) {s : EditSet}
    (hs : s ∈ producedBy rounds.flatten) : ∃ v, reply shop d v = .produced s := by
  obtain ⟨g, hg, hset⟩ := List.mem_filterMap.mp hs
  exact ⟨g.violation, h.faithful.reply_of_set? hg hset⟩

theorem touched_apart (ht : d.tree.Descending) (hlocal : shop.LocalOn d)
    (h : Rounds shop d budget vs st rounds final) (hclaimed : d.tree.AllLive st.claimed) :
    (producedBy rounds.flatten).Pairwise fun a b => ¬ d.tree.Meets a.touched b.touched := by
  refine (h.apart ht hclaimed).2.imp_of_mem fun {a b} ha hb hapart => ?_
  rintro ⟨x, hx, y, hy, hover⟩
  obtain ⟨v, hv⟩ := h.exists_reply ha
  obtain ⟨w, hw⟩ := h.exists_reply hb
  have hwide := Tree.overlaps_comm.mp (hover.widen (covers_of_reply hlocal hw hy))
  exact hapart (Tree.overlaps_comm.mp (hwide.widen (covers_of_reply hlocal hv hx)))

/-- All local repairs of a pass are selected. -/
theorem selectCompatible_eq (ht : d.tree.Descending) (hlocal : shop.LocalOn d) (hvs : d.tree.Holds vs)
    {file : String} {number : Nat} {statistics : Statistics}
    (h : Rounds shop d budget vs (.opening file number vs statistics) rounds final) :
    d.tree.selectCompatible (producedBy rounds.flatten) = .ok ⟨producedBy rounds.flatten, []⟩ := by
  have hclaimed : d.tree.AllLive (PassState.opening file number vs statistics).claimed :=
    fun h hh => absurd hh List.not_mem_nil
  have hlive := h.faithful.allLive fun g hg => hvs _
    ((h.perm fun _ => rfl).subset (List.mem_append_left _ (List.mem_map_of_mem hg)))
  exact Tree.takeClear_of_apart ht
    (fun s hs x hx => hlive x (List.mem_flatMap.mpr ⟨s, hs, hx⟩)) (h.touched_apart ht hlocal hclaimed)

theorem touched_inner (ht : d.tree.WellFormed) (h : Rounds shop d budget vs st rounds final)
    {s : EditSet} (hs : s ∈ producedBy rounds.flatten) {edit : Edit} (hedit : edit ∈ s.edits) :
    edit.touched ≠ Tree.root ∧ ∃ n, d.tree.node? edit.touched = some n := by
  obtain ⟨v, hv⟩ := h.exists_reply hs
  obtain ⟨n, hn⟩ := live_of_reply hv edit hedit
  refine ⟨fun hroot => ?_, n, hn⟩
  exact (reply_produced hv).2.2 edit hedit (.inr ⟨n, hn, (ht.orphan_iff _ n hn).mpr hroot⟩)

theorem singleInner (ht : d.tree.WellFormed) (hlocal : shop.LocalOn d) (hsingle : shop.SingleOn d)
    (h : Rounds shop d budget vs st rounds final) {s : EditSet}
    (hs : s ∈ producedBy rounds.flatten) : s.SingleInner d.tree := by
  obtain ⟨v, hv⟩ := h.exists_reply hs
  obtain ⟨-, ⟨p, hp, -, happly⟩, -⟩ := reply_produced hv
  obtain ⟨edit, hedit⟩ := hsingle _ p hp v _ happly
  have hmem : edit ∈ s.edits := by
    rw [hedit]
    exact List.mem_singleton_self edit
  have htouched : edit.touched ∈ s.touched := EditSet.mem_touched_iff.mpr (.inr ⟨edit, hmem, rfl⟩)
  exact ⟨edit, hedit, covers_of_reply hlocal hv htouched, (h.touched_inner ht hs hmem).1⟩

theorem exists_applied (ht : d.tree.WellFormed) (hlocal : shop.LocalOn d) (hsingle : shop.SingleOn d)
    (h : Rounds shop d budget vs st rounds final) (hclaimed : d.tree.AllLive st.claimed) :
    ∃ edited, d.tree.applyEditSets (producedBy rounds.flatten) = .ok edited := by
  refine (Tree.applyEditSets_of_apart ht (fun s hs edit => h.touched_inner ht hs)
    (List.pairwise_flatMap.mpr ⟨?_, ?_⟩)).2.imp fun edited hedited => hedited.1
  · intro s hs
    obtain ⟨edit, hedit, -⟩ := h.singleInner ht hlocal hsingle hs
    rw [hedit]
    exact List.pairwise_singleton ..
  · refine (h.touched_apart ht.descending hlocal hclaimed).imp fun {a b} hmeets x hx y hy hover => ?_
    exact hmeets ⟨_, EditSet.mem_touched_iff.mpr (.inr ⟨x, hx, rfl⟩), _,
      EditSet.mem_touched_iff.mpr (.inr ⟨y, hy, rfl⟩), hover⟩

end Rounds

/-- A pass with local processors selects whatever they produce, and its batch is made if each repair
is a single edit. -/
theorem runPass_local (ht : d.tree.WellFormed) (hlocal : shop.LocalOn d) {file : String} {number : Nat}
    {statistics : Statistics} (h : (runPass shop d budget requested
      (.opening file number vs statistics)).Yields j (st', outcome) j') :
    st'.pass.selected = st'.pass.produced ∧ st'.pass.conflicts = [] ∧ (shop.SingleOn d →
      (∀ s ∈ st'.pass.produced, s.SingleInner d.tree) ∧
      ∃ edited, d.tree.applyEditSets st'.pass.selected = .ok edited) := by
  obtain ⟨rounds, final, selection, hrounds, hselect, hend⟩ := runPass_cases h
  have hvs : d.tree.Holds vs := by
    cases hrounds with
    | done => exact fun v hv => absurd hv List.not_mem_nil
    | stuck _ hsplit => exact Tree.holds_of_resolveConflicts hsplit
    | round _ hsplit => exact Tree.holds_of_resolveConflicts hsplit
  have hproduced : final.pass.produced = producedBy rounds.flatten := by
    rw [hrounds.produced_eq]
    rfl
  rw [hproduced, hrounds.selectCompatible_eq ht.descending hlocal hvs] at hselect
  obtain rfl := Except.ok.inj hselect
  have hsingles : shop.SingleOn d → ∀ s ∈ final.pass.produced, s.SingleInner d.tree := by
    intro hsingle s hs
    exact hrounds.singleInner ht hlocal hsingle (hproduced ▸ hs)
  have happlied := fun hsingle => And.intro (hsingles hsingle)
    (hrounds.exists_applied ht hlocal hsingle fun h hh => absurd hh List.not_mem_nil)
  cases hend with
  | fixedPoint => exact ⟨hproduced.symm, rfl, happlied⟩
  | failed => exact ⟨hproduced.symm, rfl, happlied⟩
  | committed => exact ⟨hproduced.symm, rfl, happlied⟩

namespace Engine

variable {e : Engine σ} {rules ids : List String} {options : RepairOptions} {p p' : Progress σ}
  {number : Nat} {stop : Option StopReason}

theorem Makes.local (h : e.Makes rules options d j₀ d' st st' outcome) (hd : d.tree.WellFormed)
    (hlocal : Workshop.LocalOn ⟨e.language, e.processors⟩ d') :
    st'.pass.selected = st'.pass.produced ∧ st'.pass.conflicts = [] ∧
      (Workshop.SingleOn ⟨e.language, e.processors⟩ d' →
        (∀ s ∈ st'.pass.produced, s.SingleInner d'.tree) ∧
        ∃ edited, d'.tree.applyEditSets st'.pass.selected = .ok edited) := by
  obtain ⟨⟨number, p, remaining, k, k', hreached, -, rfl, rfl⟩, k₁, k₂, hpass⟩ := h
  exact runPass_local (hreached.wellFormed hd) hlocal hpass

theorem exists_makes_of_failure (hreached : e.Reached rules options d j₀ number p j)
    (h : (e.turn rules options number p).Yields j (p', stop) j') {failure : PassFailure}
    (hfailure : failure ∈ p'.statistics.failures) (hnew : failure ∉ p.statistics.failures) :
    ∃ d' st st' outcome fault, e.Makes rules options d j₀ d' st st' outcome ∧
      e.language.batch d'.tree st'.pass.selected
        (RenderDecision.of options.mode st'.pass.selected).mode = .error fault ∧
      failure.code = fault.codeText := by
  obtain ⟨remaining, k, hchecks, hend⟩ := turn_cases h
  have hanalyzed : failure ∉ (p.analyzed number remaining).statistics.failures := by
    rwa [analyzed_statistics, Statistics.failures_enterAll, TurnReport.filterMap_found fun _ => rfl,
      List.append_nil]
  have hpass : ∀ {st : PassState} {outcome : PassOutcome σ} {k k' : Journal},
      (runPass ⟨e.language, e.processors⟩ p.document options.budget options.mode
        ((p.analyzed number remaining).opening options.budget number)).Yields k (st, outcome) k' →
      failure ∈ st.statistics.failures → ∃ d' st st' outcome fault,
        e.Makes rules options d j₀ d' st st' outcome ∧ e.language.batch d'.tree st'.pass.selected
          (RenderDecision.of options.mode st'.pass.selected).mode = .error fault ∧
        failure.code = fault.codeText := by
    intro st outcome k₁ k₂ hrun hmem
    obtain ⟨r, fresh, hreports, rfl, -⟩ := exists_report hrun
    have hbatch := hreports.batch
    rw [PassReport.closing, Statistics.failures_enterAll, PassReport.failures_entries] at hmem
    have hmem := (List.mem_append.mp hmem).resolve_left hanalyzed
    split at hmem
    · exact absurd hmem List.not_mem_nil
    split at hmem
    · next fault hfault =>
      refine ⟨p.document, _, _, outcome, fault,
        ⟨⟨number, p, remaining, j, k, hreached, hchecks, rfl, rfl⟩, k₁, k₂, hrun⟩, ?_, ?_⟩
      · rw [PassReport.closing, PassReport.pass_selected]
        exact hbatch.trans hfault
      · rw [List.mem_singleton.mp hmem]
    · exact absurd hmem List.not_mem_nil
  cases hend with
  | clean => exact absurd hfailure hanalyzed
  | aborted => exact absurd hfailure hanalyzed
  | exhausted => exact absurd hfailure hanalyzed
  | capped => exact absurd hfailure hanalyzed
  | stopped _ hrun => exact hpass hrun hfailure
  | committed _ hrun => exact hpass hrun hfailure

/-- A run rejects no edit set if its processors are local on every file that it works on. -/
theorem repair_local (hd : d.tree.WellFormed) (hlocal : ∀ rules d' st,
      e.Begins rules options d j d' st → Workshop.LocalOn ⟨e.language, e.processors⟩ d') :
    (∀ rules d' st st' outcome, e.Makes rules options d j d' st st' outcome →
      st'.pass.selected = st'.pass.produced ∧ st'.pass.conflicts = []) ∧
    ∀ ids r j', (e.repair d ids options).Yields j r j' → ∀ s ∈ r.passes, s.conflicts = 0 := by
  have hmade : ∀ rules d' st st' outcome, e.Makes rules options d j d' st st' outcome →
      st'.pass.selected = st'.pass.produced ∧ st'.pass.conflicts = [] := by
    intro rules d' st st' outcome hmakes
    obtain ⟨hselected, hnone, -⟩ := hmakes.local hd (hlocal rules d' st hmakes.1)
    exact ⟨hselected, hnone⟩
  refine ⟨hmade, fun ids r j' hrun s hs => ?_⟩
  obtain ⟨rules, -, hlisted⟩ := exists_makes_of_repair hrun
  obtain ⟨d', st, st', outcome, hmakes, rfl⟩ := hlisted s hs
  exact congrArg List.length (hmade rules d' st st' outcome hmakes).2

end Engine
end LintRepair
