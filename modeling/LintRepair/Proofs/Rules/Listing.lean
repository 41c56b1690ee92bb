import LintRepair.Proofs.Repair.Requests
import LintRepair.Proofs.Repair.Turns
import LintRepair.Proofs.Tree.Origins

/-!
# The list of violations

What the checks of a catalog find is a function of the file and the rules: each rule flags a node at
most once, with its first report on it, and the list is sorted by a key that no two of its members
share. So the order in which the rules are given does not show.
-/
namespace LintRepair

variable {σ : Type} {d d' : Document σ} {ids ids' : List String} {j j' : Journal}
  {vs found : List Violation}

namespace Catalog

/-- The violation that a report of a check is, if it points at a node. -/
def flag? (d : Document σ) (check : RuleCheck σ) (hit : Hit) : Option Violation :=
  match hit.site with
  | .at place => do
    let h ← d.tree.handleOf? place
    let node ← d.tree.node? h
    return ⟨check.ruleId, d.tree.filePath, h, node.kind, hit.message, check.severity,
      d.tree.source.location (d.tree.spanOf h)⟩
  | _ => none

/-- Adds a violation unless its rule already flags its node. -/
def keep (found : List Violation) (v : Violation) : List Violation :=
  if found.any fun w => w.ruleId = v.ruleId && w.node = v.node then found else found ++ [v]

theorem speaks_addHit (d : Document σ) (check : RuleCheck σ) (found : List Violation) (hit : Hit) :
    (addHit d check found hit).Speaks := by
  unfold addHit
  split
  · exact (Run.speaks_log _).bind fun _ => Run.speaks_pure _
  · dsimp only
    split
    · exact (Run.speaks_log _).bind fun _ => Run.speaks_pure _
    · split
      · exact Run.speaks_pure _
      · exact (Run.speaks_lift _).bind fun _ => (Run.speaks_lift _).bind fun _ => Run.speaks_pure _

theorem speaks_runChecks (catalog : Catalog σ) (d : Document σ) (ids : List String) :
    (catalog.runChecks d ids).Speaks := by
  unfold runChecks
  split
  · exact Run.speaks_pure _
  · refine (Run.Speaks.foldlM (fun found id _ => ?_) []).bind fun _ => Run.speaks_pure _
    split
    · exact Run.speaks_pure _
    · exact (Run.speaks_lift _).bind fun hits => .foldlM (fun found hit _ => speaks_addHit ..) found

theorem deterministic (catalog : Catalog σ) : (Catalog.analyzer catalog).Deterministic where
  finds {d d' ids vs j j'} hd h k := by
    have hsame : catalog.runChecks d ids = catalog.runChecks d' ids := by
      obtain ⟨tree, parsed, number⟩ := d
      obtain ⟨tree', parsed', number'⟩ := d'
      obtain ⟨rfl, rfl⟩ := hd
      rfl
    change (catalog.runChecks d ids).Yields j vs j' at h
    change ∃ k', (catalog.runChecks d' ids).Yields k vs k'
    rw [hsame] at h
    exact (speaks_runChecks catalog d' ids).yields h k
  quiet d ids := (speaks_runChecks catalog d ids).quiet

theorem addHit_yields (d : Document σ) (check : RuleCheck σ) (found : List Violation) (hit : Hit)
    (j : Journal) : ∃ j', (addHit d check found hit).Yields j
      ((flag? d check hit).elim found (keep found)) j' := by
  unfold addHit flag?
  cases hit.site with
  | nowhere => exact ⟨_, .bind (a := ()) (Run.yields_log.mpr rfl) (.pure _ _)⟩
  | elsewhere => exact ⟨_, .bind (a := ()) (Run.yields_log.mpr rfl) (.pure _ _)⟩
  | «at» place =>
    dsimp only
    cases hof : d.tree.handleOf? place with
    | none => exact ⟨_, .bind (a := ()) (Run.yields_log.mpr rfl) (.pure _ _)⟩
    | some h =>
      obtain ⟨node, hnode⟩ := Tree.exists_node_of_handleOf? hof
      have hkind := Tree.kind_eq hnode
      have hlocation := Tree.location_eq hnode
      simp only [bind, Option.bind, hnode, pure, Option.elim_some]
      unfold keep
      dsimp only
      split
      · exact ⟨j, .pure _ _⟩
      · exact ⟨j, .bind (Run.yields_lift.mpr ⟨hkind, rfl⟩)
          (.bind (Run.yields_lift.mpr ⟨hlocation, rfl⟩) (.pure _ _))⟩

theorem foldlM_addHit_yields (d : Document σ) (check : RuleCheck σ) (hits : List Hit)
    (found : List Violation) (j : Journal) : ∃ j', (hits.foldlM (addHit d check) found).Yields j
      ((hits.filterMap (flag? d check)).foldl keep found) j' := by
  induction hits generalizing found j with
  | nil => exact ⟨j, .pure _ _⟩
  | cons hit rest ih =>
    obtain ⟨k, hk⟩ := addHit_yields d check found hit j
    obtain ⟨j', hj⟩ := ih ((flag? d check hit).elim found (keep found)) k
    rw [List.foldlM_cons]
    refine ⟨j', hk.bind ?_⟩
    cases hflag : flag? d check hit with
    | none =>
      rw [List.filterMap_cons_none hflag]
      rwa [hflag] at hj
    | some v =>
      rw [List.filterMap_cons_some hflag]
      rwa [hflag] at hj

/-- The violations of a rule, before they are told apart by their nodes. -/
def flags (catalog : Catalog σ) (d : Document σ) (parsed : σ) (id : String) : List Violation :=
  match catalog.get? id with
  | none => []
  | some check => match check.check parsed with
    | .ok hits => hits.filterMap (flag? d check)
    | .error _ => []

/-- Every one of these checks gives an answer. -/
def AllAnswer (catalog : Catalog σ) (parsed : σ) (ids : List String) : Prop :=
  ∀ id ∈ ids, ∀ check, catalog.get? id = some check → ∃ hits, check.check parsed = .ok hits

/-- Adds the violations of one rule. -/
def addRule (catalog : Catalog σ) (d : Document σ) (parsed : σ) (found : List Violation)
    (id : String) : Run (List Violation) := do
  match catalog.get? id with
  | none => return found
  | some check => (← Run.lift (check.check parsed)).foldlM (addHit d check) found

theorem addRule_yields_iff {catalog : Catalog σ} {parsed : σ} {id : String} :
    (∃ j', (addRule catalog d parsed found id).Yields j vs j') ↔ AllAnswer catalog parsed [id] ∧
      vs = (flags catalog d parsed id).foldl keep found := by
  unfold addRule AllAnswer flags
  simp only [List.mem_singleton, forall_eq]
  cases catalog.get? id with
  | none =>
    constructor
    · rintro ⟨j', h⟩
      exact ⟨fun check h => (nomatch h), (Run.yields_pure.mp h).1.symm⟩
    · rintro ⟨-, rfl⟩
      exact ⟨j, .pure _ _⟩
  | some check =>
    simp only [Run.yields_bind, Run.yields_lift, Option.some_inj, forall_eq']
    cases check.check parsed with
    | error f =>
      refine iff_of_false ?_ ?_
      · rintro ⟨j', hits, k, ⟨h, -⟩, -⟩
        cases h
      · rintro ⟨⟨hits, h⟩, -⟩
        cases h
    | ok hits =>
      obtain ⟨k, hk⟩ := foldlM_addHit_yields d check hits found j
      constructor
      · rintro ⟨j', hits', _, ⟨h, rfl⟩, hfold⟩
        cases h
        exact ⟨⟨hits, rfl⟩, hfold.unique hk⟩
      · rintro ⟨-, rfl⟩
        exact ⟨k, hits, j, ⟨rfl, rfl⟩, hk⟩

theorem foldlM_addRule_yields_iff {catalog : Catalog σ} {parsed : σ} :
    (∃ j', (ids.foldlM (addRule catalog d parsed) found).Yields j vs j') ↔
      AllAnswer catalog parsed ids ∧
        vs = (ids.flatMap (flags catalog d parsed)).foldl keep found := by
  induction ids generalizing found j with
  | nil =>
    rw [List.foldlM_nil]
    constructor
    · rintro ⟨j', h⟩
      exact ⟨fun id hid => absurd hid List.not_mem_nil, (Run.yields_pure.mp h).1.symm⟩
    · rintro ⟨-, rfl⟩
      exact ⟨j, .pure _ _⟩
  | cons id rest ih =>
    rw [List.foldlM_cons, List.flatMap_cons, List.foldl_append]
    simp only [Run.yields_bind]
    constructor
    · rintro ⟨j', next, k, hrule, hrest⟩
      obtain ⟨hanswers, rfl⟩ := addRule_yields_iff.mp ⟨k, hrule⟩
      obtain ⟨hothers, hvs⟩ := ih.mp ⟨j', hrest⟩
      refine ⟨fun id' hid' => ?_, hvs⟩
      rcases List.mem_cons.mp hid' with rfl | hid'
      · exact hanswers id' (List.mem_singleton_self id')
      · exact hothers id' hid'
    · rintro ⟨hanswers, hvs⟩
      have hanswer : AllAnswer catalog parsed [id] := fun id' hid' =>
        hanswers id' (List.mem_cons.mpr (.inl (List.mem_singleton.mp hid')))
      obtain ⟨k, hrule⟩ : ∃ k, (addRule catalog d parsed found id).Yields j
        ((flags catalog d parsed id).foldl keep found) k := addRule_yields_iff.mpr ⟨hanswer, rfl⟩
      obtain ⟨j', hrest⟩ := (ih (j := k)).mpr
        ⟨fun id' hid' => hanswers id' (List.mem_cons_of_mem _ hid'), hvs⟩
      exact ⟨j', _, k, hrule, hrest⟩

theorem runChecks_yields_iff {catalog : Catalog σ} {parsed : σ} (hd : d.parsed = some parsed) :
    (∃ j', (catalog.runChecks d ids).Yields j vs j') ↔ AllAnswer catalog parsed ids ∧
      vs = ((ids.flatMap (flags catalog d parsed)).foldl keep []).mergeSort violationLe := by
  unfold runChecks
  rw [hd]
  change (∃ j', (ids.foldlM (addRule catalog d parsed) [] >>= fun found =>
    pure (found.mergeSort violationLe)).Yields j vs j') ↔ _
  simp only [Run.yields_bind, Run.yields_pure]
  constructor
  · rintro ⟨j', found, k, hfold, rfl, rfl⟩
    obtain ⟨hanswers, rfl⟩ := foldlM_addRule_yields_iff.mp ⟨k, hfold⟩
    exact ⟨hanswers, rfl⟩
  · rintro ⟨hanswers, rfl⟩
    obtain ⟨k, hfold⟩ : ∃ k, (ids.foldlM (addRule catalog d parsed) []).Yields j
      ((ids.flatMap (flags catalog d parsed)).foldl keep []) k :=
        foldlM_addRule_yields_iff.mpr ⟨hanswers, rfl⟩
    exact ⟨k, _, k, hfold, rfl, rfl⟩

theorem mem_foldl_keep {v : Violation} (h : v ∈ vs.foldl keep found) : v ∈ found ∨ v ∈ vs := by
  induction vs generalizing found with
  | nil => exact .inl h
  | cons w rest ih =>
    rcases ih h with hkeep | hrest
    · unfold keep at hkeep
      split at hkeep
      · exact .inl hkeep
      · rcases List.mem_append.mp hkeep with hkeep | hkeep
        · exact .inl hkeep
        · exact .inr (List.mem_cons.mpr (.inl (List.mem_singleton.mp hkeep)))
    · exact .inr (List.mem_cons_of_mem _ hrest)

/-- Rules do not see each other's violations. -/
theorem foldl_keep_append {front : List Violation}
    (h : ∀ w ∈ front, ∀ v ∈ vs, w.ruleId ≠ v.ruleId) :
    vs.foldl keep (front ++ found) = front ++ vs.foldl keep found := by
  induction vs generalizing found with
  | nil => rfl
  | cons v rest ih =>
    have hfront : (front.any fun w => w.ruleId = v.ruleId && w.node = v.node) = false := by
      rw [List.any_eq_false]
      intro w hw
      simp [h w hw v List.mem_cons_self]
    have hkeep : keep (front ++ found) v = front ++ keep found v := by
      unfold keep
      rw [List.any_append, hfront, Bool.false_or]
      split
      · rfl
      · exact List.append_assoc ..
    rw [List.foldl_cons, List.foldl_cons, hkeep]
    exact ih fun w hw u hu => h w hw u (List.mem_cons_of_mem _ hu)

theorem foldl_keep_flatMap {f : String → List Violation} (hf : ∀ id, ∀ v ∈ f id, v.ruleId = id)
    (hids : ids.Nodup) :
    (ids.flatMap f).foldl keep [] = ids.flatMap fun id => (f id).foldl keep [] := by
  induction ids with
  | nil => rfl
  | cons id rest ih =>
    obtain ⟨hnew, hrest⟩ := List.nodup_cons.mp hids
    have hapart : ∀ w ∈ (f id).foldl keep [], ∀ v ∈ rest.flatMap f, w.ruleId ≠ v.ruleId := by
      intro w hw v hv heq
      obtain ⟨id', hid', hv'⟩ := List.mem_flatMap.mp hv
      have hw' := (mem_foldl_keep hw).resolve_left List.not_mem_nil
      rw [hf id w hw', hf id' v hv'] at heq
      exact hnew (heq ▸ hid')
    have happend : (rest.flatMap f).foldl keep ((f id).foldl keep [] ++ []) =
        (f id).foldl keep [] ++ (rest.flatMap f).foldl keep [] := foldl_keep_append hapart
    rw [List.append_nil] at happend
    rw [List.flatMap_cons, List.foldl_append, happend, List.flatMap_cons, ih hrest]

/-- No two violations of a list share their rule and their node. -/
def Apart (vs : List Violation) : Prop :=
  vs.Pairwise fun v w => ¬ (v.ruleId = w.ruleId ∧ v.node = w.node)

theorem apart_foldl_keep (h : Apart found) : Apart (vs.foldl keep found) := by
  induction vs generalizing found with
  | nil => exact h
  | cons v rest ih =>
    refine ih ?_
    unfold keep
    split
    · exact h
    · next hnew =>
      refine List.pairwise_append.mpr ⟨h, List.pairwise_singleton _ _, fun w hw u hu hkey => ?_⟩
      rw [List.mem_singleton.mp hu] at hkey
      exact hnew (List.any_eq_true.mpr ⟨w, hw, by simpa using hkey⟩)

theorem Apart.eq {v w : Violation} (h : Apart vs) (hv : v ∈ vs) (hw : w ∈ vs)
    (hrule : v.ruleId = w.ruleId) (hnode : v.node = w.node) : v = w := by
  have hsymm : Std.Symm fun v w : Violation => ¬ (v.ruleId = w.ruleId ∧ v.node = w.node) :=
    ⟨fun x y hxy hyx => hxy ⟨hyx.1.symm, hyx.2.symm⟩⟩
  by_contra hne
  exact List.Pairwise.forall h hv hw hne ⟨hrule, hnode⟩

theorem violationLe_iff {a b : Violation} : violationLe a b = true ↔
    a.location.start < b.location.start ∨ a.location.start = b.location.start ∧
      (a.ruleId ≠ b.ruleId ∧ unitsLe a.ruleId b.ruleId = true ∨
        a.ruleId = b.ruleId ∧ a.node ≤ b.node) := by
  unfold violationLe
  by_cases hstart : a.location.start = b.location.start
  · by_cases hrule : a.ruleId = b.ruleId
    · simp [hstart, hrule]
    · simp [hstart, hrule]
  · simp [hstart]

theorem violationLe_trans {a b c : Violation} (hab : violationLe a b = true)
    (hbc : violationLe b c = true) : violationLe a c = true := by
  rw [violationLe_iff] at hab hbc ⊢
  rcases hab with hab | ⟨hab, hab'⟩
  · exact .inl (by lia)
  rcases hbc with hbc | ⟨hbc, hbc'⟩
  · exact .inl (by lia)
  refine .inr ⟨hab.trans hbc, ?_⟩
  rcases hab' with ⟨hne, hle⟩ | ⟨heq, hle⟩
  · rcases hbc' with ⟨hne', hle'⟩ | ⟨heq', hle'⟩
    · refine .inl ⟨fun heq => hne (unitsLe_antisymm hle ?_), unitsLe_trans hle hle'⟩
      rwa [heq]
    · rw [← heq']
      exact .inl ⟨hne, hle⟩
  · rcases hbc' with ⟨hne', hle'⟩ | ⟨heq', hle'⟩
    · rw [heq]
      exact .inl ⟨hne', hle'⟩
    · exact .inr ⟨heq.trans heq', by lia⟩

theorem violationLe_total (a b : Violation) : (violationLe a b || violationLe b a) = true := by
  rw [Bool.or_eq_true, violationLe_iff, violationLe_iff]
  have hrules := unitsLe_total a.ruleId b.ruleId
  by_cases hrule : a.ruleId = b.ruleId
  · simp only [hrule]
    lia
  · have hrule' : b.ruleId ≠ a.ruleId := Ne.symm hrule
    lia

theorem Apart.antisymm (h : Apart vs) {a b : Violation} (ha : a ∈ vs) (hb : b ∈ vs)
    (hab : violationLe a b = true) (hba : violationLe b a = true) : a = b := by
  rw [violationLe_iff] at hab hba
  have hrule : a.ruleId = b.ruleId := by
    by_contra hne
    have hne' : b.ruleId ≠ a.ruleId := Ne.symm hne
    exact hne (unitsLe_antisymm (a := a.ruleId) (b := b.ruleId) (by lia) (by lia))
  exact h.eq ha hb hrule (by lia)

theorem Keyed.ruleId_of_mem_flags {catalog : Catalog σ} (hc : Keyed catalog) {parsed : σ}
    {id : String} {v : Violation} (hv : v ∈ flags catalog d parsed id) : v.ruleId = id := by
  unfold flags at hv
  split at hv
  · exact absurd hv List.not_mem_nil
  · next check hcheck =>
    split at hv
    · obtain ⟨hit, -, hflag⟩ := List.mem_filterMap.mp hv
      rw [← hc.ruleId_eq hcheck]
      unfold flag? at hflag
      split at hflag
      · simp only [bind, Option.bind_eq_some_iff] at hflag
        obtain ⟨h, -, node, -, hv⟩ := hflag
        cases hv
        rfl
      · cases hflag
    · exact absurd hv List.not_mem_nil

theorem Keyed.runChecks_perm {catalog : Catalog σ} (hc : Keyed catalog) (hids : ids.Nodup)
    (hperm : ids.Perm ids') (h : (catalog.runChecks d ids).Yields j vs j') (k : Journal) :
    ∃ k', (catalog.runChecks d ids').Yields k vs k' := by
  cases hd : d.parsed with
  | none =>
    unfold runChecks at h ⊢
    rw [hd] at h ⊢
    obtain ⟨rfl, -⟩ := Run.yields_pure.mp h
    exact ⟨k, .pure _ _⟩
  | some parsed =>
    obtain ⟨hanswers, rfl⟩ := (runChecks_yields_iff hd).mp ⟨j', h⟩
    refine (runChecks_yields_iff hd).mpr ⟨fun id hid => hanswers id (hperm.symm.subset hid), ?_⟩
    have hrules : ∀ id, ∀ v ∈ flags catalog d parsed id, v.ruleId = id :=
      fun id v hv => hc.ruleId_of_mem_flags hv
    have hapart : Apart ((ids.flatMap (flags catalog d parsed)).foldl keep []) :=
      apart_foldl_keep .nil
    refine mergeSort_eq_of_perm violationLe (fun _ _ _ => violationLe_trans) violationLe_total ?_
      fun a ha b hb => hapart.antisymm ha hb
    rw [foldl_keep_flatMap hrules hids, foldl_keep_flatMap hrules (hperm.nodup hids)]
    exact hperm.flatMap_right _

end Catalog
end LintRepair
