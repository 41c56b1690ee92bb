import LintRepair.Proofs.Repair.Rounds
import LintRepair.Proofs.Tree.Grafting

/-!
# Inner nodes first

In a pass a violation waits until everything inside its node has been tried in vain, and repairs
that are made in one pass stay apart. Rounds are compared through the nodes that earlier repairs
hold.
-/
namespace LintRepair

variable {σ : Type} {shop : Workshop σ} {d : Document σ} {budget : Budget} {t : Tree}
  {vs : List Violation} {v : Violation} {claimed : List Handle} {split : Split Violation}
  {hs : List Handling} {rounds : List (List Handling)} {deferred : List Violation}

theorem mem_foldl_unless_contains {α β : Type} [BEq β] [LawfulBEq β] (f : α → β) {b : β}
    (xs : List α) (seen : List β) :
    b ∈ xs.foldl (fun seen x => if seen.contains (f x) then seen else seen ++ [f x]) seen ↔
      b ∈ seen ∨ ∃ x ∈ xs, f x = b := by
  induction xs generalizing seen with
  | nil => simp
  | cons x rest ih =>
    rw [List.foldl_cons, ih, List.exists_mem_cons_iff, ← or_assoc]
    refine or_congr_left ?_
    split
    · next hin =>
      rw [List.contains_iff_mem] at hin
      exact ⟨.inl, fun h => h.elim id fun h => h ▸ hin⟩
    · rw [List.mem_append, List.mem_singleton, eq_comm (a := b)]

theorem EditSet.mem_touched_iff {s : EditSet} {h : Handle} :
    h ∈ s.touched ↔ h = s.violation.node ∨ ∃ e ∈ s.edits, e.touched = h := by
  rw [touched, mem_foldl_unless_contains Edit.touched, List.mem_singleton]

theorem EditSet.node_mem_touched (s : EditSet) : s.violation.node ∈ s.touched :=
  mem_touched_iff.mpr (.inl rfl)

/-- The edit is on a node that is not in the tree, or on a root. -/
def Edit.Amiss (t : Tree) (e : Edit) : Prop :=
  t.node? e.touched = none ∨ ∃ node, t.node? e.touched = some node ∧ node.parent = none

theorem PassState.problem?_eq_none_iff {edits : List Edit} :
    problem? t edits = none ↔ ∀ e ∈ edits, ¬ e.Amiss t := by
  rw [problem?, List.findSome?_eq_none_iff]
  refine forall₂_congr fun e _ => ?_
  unfold Edit.Amiss
  cases t.node? e.touched with
  | none => simp
  | some node => cases hparent : node.parent <;> simp [hparent]

/-- A processor's edits are filed under its violation, and only if all of them are on inner nodes. -/
theorem reply_produced {s : EditSet} (h : reply shop d v = .produced s) :
    s.violation = v ∧ (∃ processor, shop.processors.get? v.ruleId = some processor ∧
      s.targeted = processor.targeted ∧ processor.apply ⟨d.tree, d.parsed, v.node, v,
        shop.language.fragments d.tree.filePath⟩ = .ok (.applied s.edits)) ∧
      ∀ e ∈ s.edits, ¬ e.Amiss d.tree := by
  unfold reply at h
  split at h
  · cases h
  next processor hprocessor =>
  split at h
  · cases h
  · cases h
  · cases h
  next edits happly =>
  split at h
  · cases h
  split at h
  · cases h
  next hfine =>
  cases h
  exact ⟨rfl, ⟨processor, hprocessor, rfl, happly⟩, PassState.problem?_eq_none_iff.mp hfine⟩

theorem live_of_reply {s : EditSet} (h : reply shop d v = .produced s) :
    ∀ e ∈ s.edits, ∃ n, d.tree.node? e.touched = some n := fun e he =>
  Option.ne_none_iff_exists'.mp fun hnone => (reply_produced h).2.2 e he (.inl hnone)

/-- The fates of these violations are what the processors said, where they were asked. -/
def Faithful (shop : Workshop σ) (d : Document σ) (hs : List Handling) : Prop :=
  ∀ h ∈ hs, h.fate = .skipped ∨ h.fate = reply shop d h.violation

theorem Faithful.reply_of_set? (hf : Faithful shop d hs) {h : Handling} (hh : h ∈ hs) {s : EditSet}
    (hs : h.set? = some s) : reply shop d h.violation = .produced s := by
  unfold Handling.set? at hs
  split at hs
  · next set hfate =>
    cases hs
    rcases hf h hh with hskip | hreply
    · rw [hfate] at hskip
      cases hskip
    · exact hreply.symm.trans hfate
  · cases hs

theorem Faithful.set_spec (hf : Faithful shop d hs) {h : Handling} (hh : h ∈ hs) {s : EditSet}
    (hs : h.set? = some s) : s.violation = h.violation ∧
      ∀ e ∈ s.edits, ∃ n, d.tree.node? e.touched = some n :=
  ⟨(reply_produced (hf.reply_of_set? hh hs)).1, live_of_reply (hf.reply_of_set? hh hs)⟩

theorem mem_touchedBy_iff {c : Handle} :
    c ∈ touchedBy hs ↔ ∃ h ∈ hs, ∃ s, h.set? = some s ∧ c ∈ s.touched := by
  simp only [touchedBy, producedBy, List.mem_flatMap, List.mem_filterMap]
  constructor
  · rintro ⟨s, ⟨h, hh, hs⟩, hc⟩
    exact ⟨h, hh, s, hs, hc⟩
  · rintro ⟨h, hh, s, hs, hc⟩
    exact ⟨s, ⟨h, hh, hs⟩, hc⟩

theorem Faithful.allLive (hf : Faithful shop d hs)
    (hlive : ∀ h ∈ hs, ∃ n, d.tree.node? h.violation.node = some n) :
    d.tree.AllLive (touchedBy hs) := by
  intro c hc
  obtain ⟨h, hh, s, hs, hc⟩ := mem_touchedBy_iff.mp hc
  obtain ⟨hv, hedits⟩ := hf.set_spec hh hs
  rcases EditSet.mem_touched_iff.mp hc with rfl | ⟨e, he, rfl⟩
  · rw [hv]
    exact hlive h hh
  · exact hedits e he

/-- A violation is accepted after some others at the right time. -/
structure Timely (t : Tree) (claimed : List Handle) (vs : List Violation) (before : List Handling)
    (v : Violation) : Prop where
  /-- Everything that precedes the violation has been accepted … -/
  inner_done : ∀ w, t.Precedes w v → (before.map (·.violation)).count w = vs.count w
  /-- … and came to nothing. -/
  inner_vain : ∀ w, t.Precedes w v → ∀ g ∈ before, g.violation = w → g.set? = none
  clear : ∀ c ∈ claimed ++ touchedBy before, ¬ t.Overlaps c v.node

/-- The order that a pass over some violations keeps, beside nodes that are claimed already. -/
structure InnerFirst (t : Tree) (claimed : List Handle) (vs : List Violation)
    (rounds : List (List Handling)) (deferred : List Violation) : Prop where
  timely : ∀ before r after, rounds = before ++ r :: after → ∀ h ∈ r,
    Timely t claimed vs before.flatten h.violation
  apart : (producedBy rounds.flatten).Pairwise fun a b =>
    ¬ t.Overlaps a.violation.node b.violation.node
  held_back : ∀ v ∈ deferred, ∃ c ∈ claimed ++ touchedBy rounds.flatten, t.Overlaps c v.node

theorem timely_first (ht : t.Descending) (hr : t.Resolved claimed vs split)
    (hv : v ∈ split.taken) : Timely t claimed vs [] v where
  inner_done w hw := by
    have hnot : w ∉ vs := fun hmem => hr.not_precedes ht hv hmem hw
    rw [List.count_eq_zero.mpr hnot]
    rfl
  inner_vain _ _ g hg := absurd hg List.not_mem_nil
  clear c hc := hr.clear v hv c (by simpa [touchedBy, producedBy] using hc)

theorem Timely.after {before : List Handling} (hr : t.Resolved claimed vs split)
    (hhs : hs.map (·.violation) = split.taken) (hf : Faithful shop d hs)
    (hv : Timely t (claimed ++ touchedBy hs) split.waiting before v) :
    Timely t claimed vs (hs ++ before) v := by
  have hclear : ∀ c ∈ claimed ++ touchedBy (hs ++ before), ¬ t.Overlaps c v.node := by
    rw [touchedBy_append, ← List.append_assoc]
    exact hv.clear
  refine ⟨?_, ?_, hclear⟩
  · intro w hw
    rw [List.map_append, List.count_append, hhs, hv.inner_done w hw, ← List.count_append]
    exact hr.perm.count_eq w
  · intro w hw g hg hgw
    rcases List.mem_append.mp hg with hg | hg
    · cases hset : g.set? with
      | none => rfl
      | some s =>
        have hnode : w.node ∈ touchedBy (hs ++ before) := by
          refine mem_touchedBy_iff.mpr ⟨g, List.mem_append_left _ hg, s, hset, ?_⟩
          rw [← hgw, ← (hf.set_spec hg hset).1]
          exact s.node_mem_touched
        exact absurd (.inr hw.covers) (hclear _ (List.mem_append_right _ hnode))
    · exact hv.inner_vain w hw g hg hgw

theorem producedBy_apart (hapart : split.taken.Pairwise fun v w => ¬ t.Overlaps v.node w.node)
    (hhs : hs.map (·.violation) = split.taken) (hf : Faithful shop d hs) :
    (producedBy hs).Pairwise fun a b => ¬ t.Overlaps a.violation.node b.violation.node := by
  rw [← hhs, List.pairwise_map] at hapart
  refine List.pairwise_filterMap.mpr (hapart.imp_of_mem ?_)
  intro g h hg hh hgh a ha b hb
  rwa [(hf.set_spec hg ha).1, (hf.set_spec hh hb).1]

theorem InnerFirst.cons (ht : t.Descending) (hr : t.Resolved claimed vs split)
    (hhs : hs.map (·.violation) = split.taken) (hf : Faithful shop d hs)
    (hapart : (producedBy (hs :: rounds).flatten).Pairwise fun a b =>
      ¬ t.Overlaps a.violation.node b.violation.node)
    (hrest : InnerFirst t (claimed ++ touchedBy hs) split.waiting rounds deferred) :
    InnerFirst t claimed vs (hs :: rounds) deferred := by
  refine ⟨?_, hapart, ?_⟩
  · intro before r after hsplit h hh
    cases before with
    | nil =>
      obtain ⟨rfl, -⟩ := List.cons.inj hsplit
      refine timely_first ht hr ?_
      rw [← hhs]
      exact List.mem_map_of_mem hh
    | cons b before =>
      obtain ⟨rfl, htail⟩ := List.cons.inj hsplit
      exact (hrest.timely before r after htail h hh).after hr hhs hf
  · intro v hv
    obtain ⟨c, hc, ho⟩ := hrest.held_back v hv
    rw [List.append_assoc, ← touchedBy_append] at hc
    exact ⟨c, hc, ho⟩

section

variable {st final : PassState}

theorem allLive_claimed (shop : Workshop σ) (budget : Budget) (hvs : d.tree.Holds vs)
    (hclaimed : d.tree.AllLive st.claimed) (hsub : split.taken ⊆ vs) :
    d.tree.AllLive (((st.enter split).handle shop d budget split.taken).foldl PassState.settle
      (st.enter split)).claimed := by
  rw [PassState.foldl_settle_claimed]
  intro c hc
  rcases List.mem_append.mp hc with hc | hc
  · exact hclaimed c hc
  · have hf : Faithful shop d ((st.enter split).handle shop d budget split.taken) :=
      fun h hh => PassState.fate_of_mem_handle shop d budget hh
    refine hf.allLive (fun h hh => hvs _ (hsub ?_)) c hc
    have hmem := List.mem_map_of_mem (f := (·.violation)) hh
    rwa [PassState.map_violation_handle] at hmem

/-- The round loop ends, whatever the processors do. -/
theorem exists_rounds (shop : Workshop σ) (budget : Budget) (ht : d.tree.Descending)
    (hvs : d.tree.Holds vs) (hclaimed : d.tree.AllLive st.claimed) :
    ∃ rounds final, Rounds shop d budget vs st rounds final := by
  induction hn : vs.length using Nat.strongRecOn generalizing vs st with
  | _ n ih =>
    by_cases hne : vs = []
    · subst hne
      exact ⟨[], st, .done st⟩
    · obtain ⟨-, split, -, hsplit, -⟩ := Tree.exists_swept ht hclaimed hvs
      by_cases hnone : split.taken = []
      · exact ⟨[], _, .stuck hne hsplit hnone⟩
      · have hlen := Tree.length_resolveConflicts hsplit
        have hpos := List.length_pos_iff.mpr hnone
        have hsub := (Tree.perm_resolveConflicts hsplit).subset
        obtain ⟨rounds, final, hrounds⟩ := ih split.waiting.length (by lia)
          (hvs.mono fun w hw => hsub (List.mem_append_right _ hw))
          (allLive_claimed shop budget hvs hclaimed
            fun w hw => hsub (List.mem_append_left _ hw)) rfl
        exact ⟨_, final, .round hne hsplit hnone hrounds⟩

theorem Rounds.faithful (h : Rounds shop d budget vs st rounds final) :
    Faithful shop d rounds.flatten := fun _ hg => h.fate_of_mem hg

/-- Repairs that are made in one pass lie apart, and clear of what was claimed before it. -/
theorem Rounds.apart (ht : d.tree.Descending) (h : Rounds shop d budget vs st rounds final)
    (hclaimed : d.tree.AllLive st.claimed) :
    (∀ s ∈ producedBy rounds.flatten, ∀ c ∈ st.claimed, ¬ d.tree.Overlaps c s.violation.node) ∧
      (producedBy rounds.flatten).Pairwise fun a b =>
        ¬ d.tree.Overlaps a.violation.node b.violation.node := by
  induction h with
  | done => exact ⟨fun s hs => absurd hs List.not_mem_nil, .nil⟩
  | stuck => exact ⟨fun s hs => absurd hs List.not_mem_nil, .nil⟩
  | @round vs st split rounds final hne hsplit hsome hrest ih =>
    have hsub := (Tree.perm_resolveConflicts hsplit).subset
    obtain ⟨hclear, hapart⟩ := Tree.apart_of_resolveConflicts ht hclaimed hsplit
    obtain ⟨hlater, hpairs⟩ := ih (allLive_claimed shop budget (Tree.holds_of_resolveConflicts hsplit)
      hclaimed fun w hw => hsub (List.mem_append_left _ hw))
    have hhs := PassState.map_violation_handle shop d budget (st.enter split) split.taken
    have hf : Faithful shop d ((st.enter split).handle shop d budget split.taken) :=
      fun h hh => PassState.fate_of_mem_handle shop d budget hh
    rw [PassState.foldl_settle_claimed] at hlater
    generalize (st.enter split).handle shop d budget split.taken = hs at hlater hhs hf
    rw [List.flatten_cons, producedBy_append]
    refine ⟨fun s hs' c hc => ?_, List.pairwise_append.mpr
      ⟨producedBy_apart hapart hhs hf, hpairs, fun a ha b hb => ?_⟩⟩
    · rcases List.mem_append.mp hs' with hs' | hs'
      · obtain ⟨g, hg, hset⟩ := List.mem_filterMap.mp hs'
        rw [(hf.set_spec hg hset).1]
        refine hclear _ ?_ c hc
        rw [← hhs]
        exact List.mem_map_of_mem hg
      · exact hlater s hs' c (List.mem_append_left _ hc)
    -- What an earlier round produced is claimed in the later ones.
    · refine hlater b hb _ (List.mem_append_right _ ?_)
      exact List.mem_flatMap.mpr ⟨a, ha, a.node_mem_touched⟩

end

section

variable {j j' : Journal}

namespace Catalog

theorem forall_of_addHit {P : Violation → Prop} {check : RuleCheck σ}
    {found next : List Violation} {hit : Hit}
    (hnew : ∀ v : Violation, v.ruleId = check.ruleId → d.tree.location v.node = .ok v.location → P v)
    (hfound : ∀ v ∈ found, P v) (h : (addHit d check found hit).Yields j next j') :
    ∀ v ∈ next, P v := by
  unfold addHit at h
  split at h
  · rw [Run.yields_bind] at h
    obtain ⟨_, _, _, h⟩ := h
    exact (Run.yields_pure.mp h).1 ▸ hfound
  · dsimp only at h
    split at h
    · rw [Run.yields_bind] at h
      obtain ⟨_, _, _, h⟩ := h
      exact (Run.yields_pure.mp h).1 ▸ hfound
    · next node =>
      split at h
      · exact (Run.yields_pure.mp h).1 ▸ hfound
      · simp only [Run.yields_bind, Run.yields_lift, Run.yields_pure] at h
        obtain ⟨nodeKind, k, -, location, k', ⟨hloc, -⟩, hnext, -⟩ := h
        subst hnext
        intro v hv
        rcases List.mem_append.mp hv with hv | hv
        · exact hfound v hv
        · rw [List.mem_singleton.mp hv]
          exact hnew _ rfl hloc

theorem forall_of_runChecks {P : Violation → Prop} {catalog : Catalog σ} {ids : List String}
    {found : List Violation}
    (hnew : ∀ id ∈ ids, ∀ check, catalog.get? id = some check → ∀ v : Violation,
      v.ruleId = check.ruleId → d.tree.location v.node = .ok v.location → P v)
    (h : (catalog.runChecks d ids).Yields j found j') : ∀ v ∈ found, P v := by
  unfold runChecks at h
  split at h
  · obtain ⟨rfl, -⟩ := Run.yields_pure.mp h
    exact fun v hv => absurd hv List.not_mem_nil
  · next parsed hparsed =>
    simp only [Run.yields_bind, Run.yields_pure] at h
    obtain ⟨all, k, hall, rfl, -⟩ := h
    have key : ∀ v ∈ all, P v := by
      refine Run.foldlM_invariant (P := fun vs => ∀ v ∈ vs, P v) ?_
        (fun v hv => absurd hv List.not_mem_nil) hall
      intro id hid b j b' j' hb hstep
      split at hstep
      · exact (Run.yields_pure.mp hstep).1 ▸ hb
      · next check hcheck =>
        rw [Run.yields_bind] at hstep
        obtain ⟨hits, _, _, hhits⟩ := hstep
        exact Run.foldlM_invariant (P := fun vs => ∀ v ∈ vs, P v)
          (fun _ _ _ _ _ _ => forall_of_addHit (hnew id hid check hcheck)) hb hhits
    exact fun v hv => key v (List.mem_mergeSort.mp hv)

/-- What the checks of a catalog find is fit for the rounds of a pass. -/
theorem consistent_of_runChecks {catalog : Catalog σ} {ids : List String} {found : List Violation}
    (h : (catalog.runChecks d ids).Yields j found j') : d.tree.Consistent found :=
  Tree.consistent_of_location (forall_of_runChecks (fun _ _ _ _ _ _ hloc => hloc) h)

end Catalog

end

/-- A pass before its first round. -/
def PassState.opening (file : String) (number : Nat) (vs : List Violation)
    (statistics : Statistics) : PassState :=
  { pass := { file, number, violations := vs }, statistics }

/-- A file of two nested nodes. -/
def nestedDocument : Document Unit :=
  ⟨.ofTemplate "f" [] ⟨"a", none, none, .node "b" none none .nil .nil⟩, none, 0⟩

/-- A violation on each of them, the inner one first. -/
def nestedViolations : List Violation :=
  [⟨"r", "f", 1, "b", "m", .warning, ⟨1, 1, 0, 0⟩⟩, ⟨"r", "f", 0, "a", "m", .warning, ⟨1, 1, 0, 0⟩⟩]

theorem consistent_nestedViolations : nestedDocument.tree.Consistent nestedViolations := by
  constructor
  · simp only [nestedViolations, List.mem_cons, List.not_mem_nil, or_false, forall_eq_or_imp,
      forall_eq]
    exact ⟨⟨_, rfl⟩, ⟨_, rfl⟩⟩
  · simp [nestedViolations]

/-- A single processor, which inserts a node behind the flagged one. -/
def insertingShop : Workshop Unit where
  language := ⟨fun _ _ => .error (.other ""), fun t _ => .ok t.source, fun _ => default⟩
  processors := .ofList [("r", ⟨"r", "r", "", true, fun c =>
    .ok (.applied [.insertAfter c.node (.leaf "c" []) none])⟩)]

end LintRepair
