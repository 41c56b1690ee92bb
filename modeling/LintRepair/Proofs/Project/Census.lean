import LintRepair.Project.Mine
import LintRepair.Proofs.Project.FileWise
import LintRepair.Proofs.Repair.Findings
import LintRepair.Proofs.Repair.RuleOrder

/-!
# Counting a project and repairing it

The miner counts what the checks list for each file, and a repair that writes nothing has the same in its books
as found. So both tell the same numbers, list the same files as broken, and put none of them aside.
-/
namespace LintRepair

/-! ## Counts by rule -/

namespace Amount

variable {counts totals : List (String × Amount Nat)} {id ruleId : String}

/-- Nothing is inherited under the id. -/
def Plain (id : String) : Prop := inherited? id = none

instance (id : String) : Decidable (Plain id) := inferInstanceAs (Decidable (inherited? id = none))

theorem Plain.ne_lineage (h : Plain id) : id ≠ lineage := by
  rintro rfl
  exact nomatch h

theorem lookup_enter (h : ruleId ≠ lineage) (counts : List (String × Amount Nat)) (a : Amount Nat)
    (id : String) :
    (enter counts ruleId a).lookup id = if ruleId = id then some a else counts.lookup id := by
  rw [enter, if_neg h]
  induction counts with
  | nil =>
    rw [enter.replace, List.lookup_cons]
    by_cases hid : ruleId = id
    · simp [hid]
    · simp [hid, beq_false_of_ne (Ne.symm hid)]
  | cons c rest ih =>
    obtain ⟨first, old⟩ := c
    rw [enter.replace]
    by_cases hfirst : first = ruleId
    · subst hfirst
      by_cases hid : first = id
      · simp [hid]
      · simp [List.lookup_cons, hid, beq_false_of_ne (Ne.symm hid)]
    · rw [if_neg hfirst, List.lookup_cons, List.lookup_cons, ih]
      by_cases hid : id = first
      · subst hid
        simp [Ne.symm hfirst]
      · simp [beq_false_of_ne hid]

theorem enter_lineage (counts : List (String × Amount Nat)) (a : Amount Nat) :
    enter counts lineage a = counts := if_pos rfl

theorem lookup_enter_lineage (counts : List (String × Amount Nat)) (ruleId : String) (a : Amount Nat) :
    (enter counts ruleId a).lookup lineage = counts.lookup lineage := by
  by_cases h : ruleId = lineage
  · rw [h, enter_lineage]
  · rw [lookup_enter h, if_neg h]

theorem ids_replace (ruleId : String) (a : Amount Nat) (counts : List (String × Amount Nat)) :
    (enter.replace ruleId a counts).map Prod.fst =
      if ruleId ∈ counts.map Prod.fst then counts.map Prod.fst else counts.map Prod.fst ++ [ruleId] := by
  induction counts with
  | nil => rfl
  | cons c rest ih =>
    obtain ⟨first, old⟩ := c
    rw [enter.replace]
    by_cases h : first = ruleId
    · simp [h]
    · rw [if_neg h, List.map_cons, ih]
      simp only [List.map_cons, List.mem_cons, Ne.symm h, false_or]
      split <;> rfl

theorem nodup_ids_enter (h : (counts.map Prod.fst).Nodup) (ruleId : String) (a : Amount Nat) :
    ((enter counts ruleId a).map Prod.fst).Nodup := by
  unfold enter
  split
  · exact h
  · rw [ids_replace]
    split
    · exact h
    · next hnew =>
      exact List.nodup_append.mpr ⟨h, List.nodup_singleton _, fun a ha b hb heq =>
        hnew (List.mem_singleton.mp hb ▸ heq ▸ ha)⟩

theorem foldl_add_numbers (ns : List Nat) (m : Nat) :
    (ns.map number).foldl add (number m) = number (m + ns.sum) := by
  induction ns generalizing m with
  | nil => rfl
  | cons n rest ih =>
    rw [List.map_cons, List.foldl_cons, add, ih, List.sum_cons, Nat.add_assoc]

theorem foldl_add_words (as : List (Amount Nat)) (s : String) : ∃ s', as.foldl add (words s) = words s' := by
  induction as generalizing s with
  | nil => exact ⟨s, rfl⟩
  | cons a rest ih => exact ih _

/-- What comes under an id by counting `n` things in an empty record, if anything. -/
def gain (id : String) (n : Nat) : Amount Nat :=
  (fun a => a.add (.number 1))^[n] (((inherited? id).map words).getD (.number 0))

theorem gain_of_plain (h : Plain id) (n : Nat) : gain id n = .number n := by
  rw [gain, h]
  induction n with
  | zero => rfl
  | succ n ih => rw [Function.iterate_succ_apply', ih, add]

theorem gain_of_inherited (h : ¬ Plain id) (n : Nat) : ∃ s, gain id n = .words s := by
  obtain ⟨s, hs⟩ := Option.ne_none_iff_exists'.mp h
  rw [gain, hs]
  induction n with
  | zero => exact ⟨s, rfl⟩
  | succ n ih =>
    obtain ⟨s', hs'⟩ := ih
    exact ⟨_, by rw [Function.iterate_succ_apply', hs', add]; exact nofun⟩

end Amount

section Counts

variable {counts totals : List (String × Amount Nat)} {id ruleId : String}

theorem lookup_countRule (h : ruleId ≠ Amount.lineage) (counts : List (String × Amount Nat))
    (a : Amount Nat) (id : String) : (countRule counts ruleId a).lookup id =
      if ruleId = id then some (((Amount.at? counts ruleId).getD (.number 0)).add a)
      else counts.lookup id :=
  Amount.lookup_enter h ..

theorem at?_of_lookup {a : Amount Nat} (h : counts.lookup id = some a) : Amount.at? counts id = some a := by
  rw [Amount.at?, h, Option.some_or]

theorem lookup_foldl_countRule (hid : id ≠ Amount.lineage) (vs : List Violation)
    (counts : List (String × Amount Nat)) :
    (vs.foldl (fun counts v => countRule counts v.ruleId (.number 1)) counts).lookup id =
      if vs.countP (fun v => v.ruleId = id) = 0 then counts.lookup id
      else some ((fun a => a.add (.number 1))^[vs.countP fun v => v.ruleId = id]
        ((Amount.at? counts id).getD (.number 0))) := by
  induction vs generalizing counts with
  | nil => rfl
  | cons v rest ih =>
    rw [List.foldl_cons, ih]
    by_cases hv : v.ruleId = id
    · subst hv
      have hlookup := lookup_countRule hid counts (.number 1) v.ruleId
      rw [if_pos rfl] at hlookup
      rw [List.countP_cons_of_pos (by simp), if_neg (Nat.succ_ne_zero _), Function.iterate_succ_apply,
        at?_of_lookup hlookup, hlookup]
      split
      · next hzero => rw [hzero]; rfl
      · rfl
    · have hlookup : (countRule counts v.ruleId (.number 1)).lookup id = counts.lookup id := by
        by_cases hline : v.ruleId = Amount.lineage
        · rw [countRule, hline, Amount.enter_lineage]
        · rw [lookup_countRule hline, if_neg hv]
      rw [List.countP_cons_of_neg (by simpa using hv), Amount.at?, hlookup, ← Amount.at?]

theorem lookup_countByRule (hid : id ≠ Amount.lineage) (vs : List Violation) :
    (countByRule vs).lookup id = if vs.countP (fun v => v.ruleId = id) = 0 then none
      else some (Amount.gain id (vs.countP fun v => v.ruleId = id)) := by
  rw [countByRule, lookup_foldl_countRule hid]
  rfl

theorem countByRule_eq_nil_iff {vs : List Violation} :
    countByRule vs = [] ↔ ∀ v ∈ vs, v.ruleId = Amount.lineage := by
  constructor
  · intro h v hv
    by_contra hne
    have hlookup := lookup_countByRule hne vs
    rw [h, if_neg (List.countP_pos_iff.mpr ⟨v, hv, by simp⟩).ne'] at hlookup
    cases hlookup
  · unfold countByRule
    induction vs with
    | nil => exact fun _ => rfl
    | cons v rest ih =>
      intro h
      rw [List.foldl_cons, countRule, h v List.mem_cons_self, Amount.enter_lineage]
      exact ih fun w hw => h w (List.mem_cons_of_mem _ hw)

theorem nodup_ids_countByRule (vs : List Violation) : ((countByRule vs).map Prod.fst).Nodup := by
  unfold countByRule
  have hnil : (([] : List (String × Amount Nat)).map Prod.fst).Nodup := List.nodup_nil
  generalize ([] : List (String × Amount Nat)) = counts at hnil
  induction vs generalizing counts with
  | nil => exact hnil
  | cons v rest ih => exact ih _ (Amount.nodup_ids_enter hnil ..)

/-- Counts that are added to others. -/
def addCounts (totals counts : List (String × Amount Nat)) : List (String × Amount Nat) :=
  counts.foldl (fun totals c => countRule totals c.1 c.2) totals

theorem lookup_addCounts_of_none (h : counts.lookup id = none) (totals : List (String × Amount Nat)) :
    (addCounts totals counts).lookup id = totals.lookup id := by
  induction counts generalizing totals with
  | nil => rfl
  | cons c rest ih =>
    rw [List.lookup_cons] at h
    split at h
    · cases h
    · next hne =>
      have hid : c.1 ≠ id := fun heq => by simp [heq] at hne
      rw [addCounts, List.foldl_cons, ← addCounts, ih h]
      by_cases hline : c.1 = Amount.lineage
      · rw [countRule, hline, Amount.enter_lineage]
      · rw [lookup_countRule hline, if_neg hid]

theorem lookup_addCounts (hid : id ≠ Amount.lineage) (hnodup : (counts.map Prod.fst).Nodup)
    {a : Amount Nat} (ha : totals.lookup id = some a) :
    (addCounts totals counts).lookup id = some ((counts.lookup id).toList.foldl Amount.add a) := by
  induction counts generalizing totals with
  | nil => exact ha
  | cons c rest ih =>
    obtain ⟨first, b⟩ := c
    obtain ⟨hfirst, hrest⟩ := List.nodup_cons.mp hnodup
    rw [addCounts, List.foldl_cons, ← addCounts]
    by_cases heq : first = id
    · subst heq
      have hnone : rest.lookup first = none := by
        refine List.lookup_eq_none_iff.mpr fun c hc => bne_iff_ne.mpr fun h => hfirst ?_
        exact List.mem_map.mpr ⟨c, hc, h.symm⟩
      rw [lookup_addCounts_of_none hnone, lookup_countRule hid, if_pos rfl, at?_of_lookup ha,
        List.lookup_cons_self]
      rfl
    · have hkeeps : (countRule totals first b).lookup id = some a := by
        by_cases hline : first = Amount.lineage
        · rw [countRule, hline, Amount.enter_lineage, ha]
        · rw [lookup_countRule hline, if_neg heq, ha]
      rw [ih hrest hkeeps, List.lookup_cons, beq_false_of_ne (Ne.symm heq)]

theorem lookup_foldl_addCounts (hid : id ≠ Amount.lineage) {a : Amount Nat}
    (css : List (List (String × Amount Nat))) (hnodup : ∀ counts ∈ css, (counts.map Prod.fst).Nodup)
    (ha : totals.lookup id = some a) : (css.foldl addCounts totals).lookup id =
      some ((css.filterMap fun counts => counts.lookup id).foldl Amount.add a) := by
  induction css generalizing totals a with
  | nil => exact ha
  | cons counts rest ih =>
    rw [List.foldl_cons, ih (fun c hc => hnodup c (List.mem_cons_of_mem _ hc))
      (lookup_addCounts hid (hnodup counts List.mem_cons_self) ha), List.filterMap_cons]
    cases counts.lookup id <;> rfl

theorem lookup_foldl_addCounts_lineage (css : List (List (String × Amount Nat)))
    (totals : List (String × Amount Nat)) :
    (css.foldl addCounts totals).lookup Amount.lineage = totals.lookup Amount.lineage := by
  have hone (counts totals : List (String × Amount Nat)) :
      (addCounts totals counts).lookup Amount.lineage = totals.lookup Amount.lineage := by
    induction counts generalizing totals with
    | nil => rfl
    | cons c rest ih =>
      rw [addCounts, List.foldl_cons, ← addCounts, ih, countRule, Amount.lookup_enter_lineage]
  induction css generalizing totals with
  | nil => rfl
  | cons counts rest ih => rw [List.foldl_cons, ih, hone]

theorem lookup_start (hid : id ≠ Amount.lineage) {rules : List String} (hmem : id ∈ rules) :
    (Mining.start rules).totals.lookup id = some (.number 0) := by
  have hfold (rules : List String) (totals : List (String × Amount Nat))
      (h : id ∈ rules ∨ totals.lookup id = some (.number 0)) :
      (rules.foldl (fun totals id => Amount.enter totals id (.number 0)) totals).lookup id =
        some (.number 0) := by
    induction rules generalizing totals with
    | nil => exact h.resolve_left List.not_mem_nil
    | cons first rest ih =>
      refine ih _ ?_
      by_cases heq : first = id
      · subst heq
        exact .inr ((Amount.lookup_enter hid ..).trans (if_pos rfl))
      · refine h.imp (fun h => (List.mem_cons.mp h).resolve_left (Ne.symm heq)) fun h => ?_
        by_cases hline : first = Amount.lineage
        · rw [hline]
          exact h
        · exact (Amount.lookup_enter hline ..).trans ((if_neg heq).trans h)
  exact hfold rules [] (.inl hmem)

theorem lookup_start_lineage (rules : List String) :
    (Mining.start rules).totals.lookup Amount.lineage = none := by
  have hfold (totals : List (String × Amount Nat)) :
      (rules.foldl (fun totals id => Amount.enter totals id (.number 0)) totals).lookup Amount.lineage =
        totals.lookup Amount.lineage := by
    induction rules generalizing totals with
    | nil => rfl
    | cons first rest ih => rw [List.foldl_cons, ih, Amount.lookup_enter_lineage]
  exact hfold []

theorem numbered_ne_number {a : Option (Amount Nat)} (h : ∀ n, a ≠ some (.number n)) (x : Number) :
    a.map (Amount.map Number.ofNat) ≠ some (.number x) := by
  rcases a with _ | n | s
  · exact nofun
  · exact absurd rfl (h n)
  · exact nofun

theorem lookup_numbered (counts : List (String × Amount Nat)) (id : String) :
    (numbered counts).lookup id = (counts.lookup id).map (Amount.map Number.ofNat) := by
  induction counts with
  | nil => rfl
  | cons c rest ih =>
    rw [numbered, List.map_cons, ← numbered, List.lookup_cons, List.lookup_cons, ih]
    split <;> rfl

end Counts

/-! ## What the miner takes in -/

/-- The note of a file that fails in one of the two ways. -/
def faultNote? {α : Type} (unparsable : Bool) (place : Route) : Except Fault α → Option FileNote
  | .ok _ => none
  | .error fault =>
    if fault.isSyntaxError = unparsable then some ⟨place.text, fault.message⟩ else none

namespace Mining

variable {m : Mining} {rules : List String} {ends : List (Route × Except Fault (List (String × Amount Nat)))}

/-- The entry of a file with violations. -/
def listing? (place : Route) :
    Except Fault (List (String × Amount Nat)) → Option (Route × List (String × Amount Nat))
  | .ok (c :: rest) => some (place, c :: rest)
  | _ => none

/-- What has been counted with one more file. -/
def taken (m : Mining) (place : Route) : Except Fault (List (String × Amount Nat)) → Mining
  | .ok [] => m
  | .ok counts =>
    { m with
      files := m.files ++ [(place, counts)]
      totals := counts.foldl (fun totals c => countRule totals c.1 c.2) m.totals }
  | .error fault =>
    if fault.isSyntaxError then
      { m with parseErrors := m.parseErrors ++ [⟨place.text, fault.message⟩] }
    else { m with failures := m.failures ++ [⟨place.text, fault.message⟩] }

theorem take_matches (m : Mining) (place : Route) (result : Except Fault (List (String × Amount Nat))) :
    Matches (Session.Alike Eq) Eq (m.take place result) (pure (m.taken place result)) := by
  cases result with
  | ok counts => cases counts <;> exact matches_pure rfl
  | error fault =>
    unfold take taken
    dsimp only
    split
    · exact fun _ _ hst => ⟨.ok rfl, hst⟩
    · exact matches_pure rfl

/-- Counts that tell what these files came to. -/
structure Tells (m : Mining) (rules : List String)
    (ends : List (Route × Except Fault (List (String × Amount Nat)))) : Prop where
  files : m.files = ends.filterMap fun x => listing? x.1 x.2
  parseErrors : m.parseErrors = ends.filterMap fun x => faultNote? true x.1 x.2
  failures : m.failures = ends.filterMap fun x => faultNote? false x.1 x.2
  totals : m.totals = (m.files.map Prod.snd).foldl addCounts (start rules).totals

theorem tells_start (rules : List String) : (start rules).Tells rules [] := ⟨rfl, rfl, rfl, rfl⟩

theorem Tells.taken (h : m.Tells rules ends) (place : Route)
    (result : Except Fault (List (String × Amount Nat))) :
    (m.taken place result).Tells rules (ends ++ [(place, result)]) := by
  have hone : ∀ {β : Type} (f : Route × Except Fault (List (String × Amount Nat)) → Option β),
      (ends ++ [(place, result)]).filterMap f = ends.filterMap f ++ (f (place, result)).toList := by
    intro β f
    rw [List.filterMap_append]
    cases hf : f (place, result) <;> simp [hf]
  cases result with
  | ok counts =>
    cases counts with
    | nil =>
      refine ⟨?_, ?_, ?_, h.totals⟩
      · rw [hone, ← h.files]
        exact (List.append_nil _).symm
      · rw [hone, ← h.parseErrors]
        exact (List.append_nil _).symm
      · rw [hone, ← h.failures]
        exact (List.append_nil _).symm
    | cons c rest =>
      refine ⟨?_, ?_, ?_, ?_⟩
      · rw [hone, ← h.files]
        rfl
      · rw [hone, ← h.parseErrors]
        exact (List.append_nil _).symm
      · rw [hone, ← h.failures]
        exact (List.append_nil _).symm
      · change addCounts m.totals (c :: rest) = _
        change _ = ((m.files ++ [(place, c :: rest)]).map Prod.snd).foldl addCounts _
        rw [List.map_append, List.foldl_append, ← h.totals]
        rfl
  | error fault =>
    unfold Mining.taken
    dsimp only
    split
    · next hsyntax => exact ⟨by simp [hone, listing?, h.files], by simp [hone, faultNote?, hsyntax, h.parseErrors],
        by simp [hone, faultNote?, hsyntax, h.failures], h.totals⟩
    · next hsyntax => exact ⟨by simp [hone, listing?, h.files], by simp [hone, faultNote?, hsyntax, h.parseErrors],
        by simp [hone, faultNote?, hsyntax, h.failures], h.totals⟩

theorem tells_foldl (rules : List String)
    (ends : List (Route × Except Fault (List (String × Amount Nat)))) :
    (ends.foldl (fun (m : Mining) x => m.taken x.1 x.2) (start rules)).Tells rules ends := by
  induction ends using List.reverseRecOn with
  | nil => exact tells_start rules
  | append_singleton rest x ih =>
    rw [List.foldl_concat]
    exact ih.taken x.1 x.2

end Mining

/-! ## Work that leaves the files as they are -/

namespace Work

variable {α β : Type} {x : Work α}

theorem on_read_of_ok {s : Session} {place : Route} {text : Text} (h : s.files.read place = .ok text) :
    (read place).on s = (.ok text, s) := by
  rw [← h]
  rfl

theorem on_read_of_error {s : Session} {place : Route} {fault : Fault}
    (h : s.files.read place = .error fault) : (read place).on s = (.error fault, s) := by
  rw [← h]
  rfl

theorem on_ofRun_of_yields {r : Run α} {s : Session} {a : α} {j : Journal}
    (h : r.Yields s.journal a j) : (ofRun r).on s = (.ok a, { s with journal := j }) := by
  unfold Run.Yields at h
  simp only [on, ofRun, ExceptT.run, StateT.run, Id.run] at h ⊢
  rw [h]

theorem on_ofRun_of_fails {r : Run α} {s : Session} {fault : Fault} {j : Journal}
    (h : r.Fails s.journal fault j) : (ofRun r).on s = (.error fault, { s with journal := j }) := by
  unfold Run.Fails at h
  simp only [on, ofRun, ExceptT.run, StateT.run, Id.run] at h ⊢
  rw [h]

/-- The computation writes no file. -/
def Keeps (x : Work α) : Prop := ∀ s, (x.on s).2.files = s.files

theorem keeps_pure (a : α) : (pure a : Work α).Keeps := fun _ => rfl

theorem keeps_ask (question : FileTree → Except Fault α) : (ask question).Keeps := fun _ => rfl

theorem keeps_ofRun (r : Run α) : (ofRun r).Keeps := fun _ => rfl

theorem Keeps.bind {f : α → Work β} (hx : x.Keeps) (hf : ∀ a, (f a).Keeps) : (x >>= f).Keeps := by
  intro s
  have hfiles := hx s
  cases hends : x.on s with
  | mk r s' =>
    rw [hends] at hfiles
    cases r with
    | error f => rw [on_bind_of_error hends, hfiles]
    | ok a => rw [on_bind_of_ok hends, hf a, hfiles]

end Work

/-- Work that is settled by the files, and leaves them as they are. -/
structure Still {β : Type} (work : Route → Work β) : Prop where
  settled : ∀ p, Matches (Session.Alike Eq) Eq (work p) (work p)
  keeps : ∀ p, (work p).Keeps

namespace Still

variable {β γ : Type} {work : Route → Work β}

theorem settleAll_eq (h : Still work) (places : List Route) (s : Session) :
    ∃ s', (settleAll places work).on s =
      (.ok (places.map fun p => (p, ((work p).start s.files).1)), s') := by
  induction places generalizing s with
  | nil => exact ⟨s, rfl⟩
  | cons p rest ih =>
    have halone : ((work p).start s.files).1 = ((work p).on s).1 :=
      (h.settled p { files := s.files } s rfl).1.eq
    obtain ⟨s', hs'⟩ := ih ((work p).on s).2
    rw [h.keeps p] at hs'
    refine ⟨s', ?_⟩
    rw [List.map_cons, halone]
    exact settleAll_cons_on hs'

/-- In batches of every size, such work comes at each place to what it comes to there alone. -/
theorem inBatches_eq (h : Still work) {take : γ → Route → Except Fault β → Work γ}
    {taken : γ → Route → Except Fault β → γ}
    (htake : ∀ c p r, Matches (Session.Alike Eq) Eq (take c p r) (pure (taken c p r)))
    {size : Int} (hsize : 1 ≤ size) (places : List Route) (c : γ) (s : Session) :
    ∃ s', (inBatches size places work take c).on s =
      (.ok ((places.map fun p => (p, ((work p).start s.files).1)).foldl
        (fun c x => taken c x.1 x.2) c), s') := by
  obtain ⟨s₁, hsettled⟩ := h.settleAll_eq places s
  obtain ⟨s', hon, -⟩ := (inBatches_matches h.settled htake hsize places c).exists_on (t := s) rfl
    (Work.on_bind_of_ok hsettled)
  exact ⟨s', hon⟩

end Still

namespace Run

variable {α β : Type} {x : Run α} {f : α → Run β} {fault : Fault} {j k j' : Journal}

theorem Fails.bind (h : x.Fails j fault j') : (x >>= f).Fails j fault j' := by
  unfold Fails at h ⊢
  simp only [Bind.bind, ExceptT.bind, ExceptT.mk, ExceptT.run, StateT.bind, StateT.run, Id.run] at h ⊢
  rw [h]
  rfl

theorem Yields.bind_fails {a : α} (h : x.Yields j a k) (hf : (f a).Fails k fault j') :
    (x >>= f).Fails j fault j' := by
  unfold Yields at h
  unfold Fails at hf ⊢
  simp only [Bind.bind, ExceptT.bind, ExceptT.mk, ExceptT.run, StateT.bind, StateT.run, Id.run] at h hf ⊢
  rw [h]
  exact hf

end Run

theorem Language.read_fails {σ : Type} {language : Language σ} {text : Text} {file : String} {fault : Fault}
    (h : language.parse text file = .error fault) (j : Journal) :
    (language.read text file).Fails j fault j := by
  unfold Language.read
  rw [h]
  exact Run.Fails.bind rfl

namespace Engine

variable {σ : Type} {e : Engine σ} {catalog : Catalog σ} {tree : FileTree} {ids rules : List String}
  {options : ProjectOptions} {place : Route} {size : Int}

/-- What the checks list for a file. -/
def scan (e : Engine σ) (place : Route) (ids : List String) : Work (List Violation) := do
  let text ← Work.read place
  Work.ofRun (e.analyzeSource text place.text ids)

theorem mineFile_eq (e : Engine σ) (place : Route) (ids : List String) :
    e.mineFile place ids = e.scan place ids >>= fun vs => pure (countByRule vs) := by
  unfold mineFile scan
  rw [bind_assoc]

/-- What is listed for a file in these files, or why nothing is. -/
def listed (e : Engine σ) (tree : FileTree) (ids : List String) (place : Route) :
    Except Fault (List Violation) :=
  ((e.scan place ids).start tree).1

theorem start_mineFile (e : Engine σ) (tree : FileTree) (ids : List String) (place : Route) :
    ((e.mineFile place ids).start tree).1 = (e.listed tree ids place).map countByRule := by
  rw [mineFile_eq]
  change (Work.on _ _).1 = _
  unfold listed
  cases hends : (e.scan place ids).on { files := tree } with
  | mk r s =>
    have hstart : (e.scan place ids).start tree = (r, s) := hends
    rw [hstart]
    cases r with
    | error f => rw [Work.on_bind_of_error hends]; rfl
    | ok vs => rw [Work.on_bind_of_ok hends]; rfl

theorem analyzeSource_matches (he : e.analyzer.Steady) (text : Text) (file : String)
    (ids : List String) :
    (e.analyzeSource text file ids).Matches Eq (e.analyzeSource text file ids) := by
  unfold analyzeSource
  refine Matches.bind (Run.speaks_lift _).matches ?_
  rintro rules _ rfl
  refine (Language.read_matches _ _ _).bind fun d d' hd => ?_
  refine Matches.bind (R := Eq) (.tryCatch ((he d d' rules hd).bind ?_) fun f => ?_) ?_
  · rintro vs _ rfl
    exact (Run.matches_release _ _).bind fun _ _ _ => matches_pure rfl
  · exact (Run.matches_release _ _).bind fun _ _ _ =>
      (matches_throw (R := fun _ _ : List Violation => False) f).bind fun _ _ => False.elim
  · rintro x _ rfl
    cases x with
    | error vs => exact matches_pure rfl
    | ok r => exact matches_pure rfl

theorem still_mineFile (he : e.analyzer.Steady) (ids : List String) :
    Still fun place => e.mineFile place ids where
  settled place := by
    refine Matches.bind (matches_ask fun t t' h => by rw [h]) ?_
    rintro text _ rfl
    refine (matches_ofRun (analyzeSource_matches he text place.text ids)).bind ?_
    rintro vs _ rfl
    exact matches_pure rfl
  keeps place := (Work.keeps_ask _).bind fun _ => (Work.keeps_ofRun _).bind fun _ => Work.keeps_pure _

theorem still_repairFile (he : e.analyzer.Steady) {options : RepairOptions}
    (habort : options.abortAfter = none) (ids : List String) :
    Still fun place => e.repairFile place ids options true where
  settled place := repairFile_alike he habort ids true place
  keeps place := by
    rw [repairFile_eq]
    refine (Work.keeps_ask _).bind fun text => (Work.keeps_ofRun _).bind fun r => ?_
    unfold writeBack
    dsimp only
    rw [Bool.not_true, Bool.and_false, if_neg Bool.false_ne_true]
    exact Work.keeps_pure _

/-- No check throws, on whatever text of the file a repair of it comes to. -/
def ChecksAnswer (e : Engine σ) (catalog : Catalog σ) (rules : List String) (options : RepairOptions)
    (tree : FileTree) (place : Route) : Prop :=
  ∀ text template parsed (j : Journal) n p k, tree.read place = .ok text →
    e.language.parse text place.text = .ok (template, parsed) →
    e.Reached rules options ⟨.ofTemplate place.text text template, some parsed, j.parsed⟩
      { j with parsed := j.parsed + 1 } n p k →
    ∀ parsed', p.document.parsed = some parsed' → catalog.AllAnswer parsed' rules

/-- Passes or repairs are capped, or a repair of the file comes to an end before a run without caps is given up. -/
def Ends (e : Engine σ) (rules : List String) (options : RepairOptions) (tree : FileTree) (place : Route) :
    Prop :=
  (options.budget.passes ≠ .unbounded ∨ options.budget.repairsPerRule ≠ .unbounded) ∨
    ∀ text template parsed (j : Journal) p k, tree.read place = .ok text →
      e.language.parse text place.text = .ok (template, parsed) →
      ¬ e.Reached rules options ⟨.ofTemplate place.text text template, some parsed, j.parsed⟩
        { j with parsed := j.parsed + 1 } (1 + e.turnBound options) p k

/-- What a repair of a file that writes nothing tells of it: what is listed for it, counted by rule. -/
def Counted (place : Route) (vs : List Violation) (file : FileRepair) : Prop :=
  file.filePath = place.text ∧ ∀ id, file.statistics.found id = vs.countP fun v => v.ruleId = id

theorem nodup_of_validateAnalysisRules (h : e.validateAnalysisRules ids = .ok rules) : rules.Nodup := by
  unfold validateAnalysisRules at h
  dsimp only at h
  split at h
  · cases h
  · split at h
    · exact Except.ok.inj h ▸ nodup_firstOccurrences ids
    · cases h

theorem nodup_sorted (h : e.validateAnalysisRules ids = .ok rules) : (rules.mergeSort unitsLe).Nodup :=
  (List.mergeSort_perm rules unitsLe).nodup_iff.mpr (nodup_of_validateAnalysisRules h)

theorem validateRules_sorted (hrules : e.validateRules ids = .ok rules) :
    e.validateRules (rules.mergeSort unitsLe) = .ok (rules.mergeSort unitsLe) := by
  have hperm := List.mergeSort_perm rules unitsLe
  have hnodup := nodup_sorted (validateAnalysisRules_eq hrules)
  obtain ⟨-, hne, hall⟩ := validateRules_eq_ok_iff.mp (validateRules_again hrules)
  refine validateRules_eq_ok_iff.mpr
    ⟨(firstOccurrences_eq_self hnodup).symm, fun hnil => ?_, fun id hid => ?_⟩
  · rw [hnil] at hperm
    exact hne hperm.symm.eq_nil
  · exact hall id (hperm.mem_iff.mp hid)

theorem listed_of_finds (hanalyzer : e.analyzer = Catalog.analyzer catalog) (hkeyed : catalog.Keyed)
    (hrules : e.validateRules ids = .ok rules) {text : Text} (hread : tree.read place = .ok text)
    {template : Template} {parsed : σ} (hparse : e.language.parse text place.text = .ok (template, parsed))
    {vs : List Violation}
    (hfinds : e.Finds ⟨.ofTemplate place.text text template, some parsed, 0⟩ rules vs) :
    e.listed tree (rules.mergeSort unitsLe) place = .ok vs := by
  have hperm := List.mergeSort_perm rules unitsLe
  have hnodup := nodup_of_validateAnalysisRules (validateAnalysisRules_eq hrules)
  have hsorted : e.Finds ⟨.ofTemplate place.text text template, some parsed, 0⟩
      (rules.mergeSort unitsLe) vs := by
    intro j
    obtain ⟨j', hj⟩ := hfinds j
    rw [hanalyzer] at hj ⊢
    have hlist : (Catalog.runChecks catalog ⟨.ofTemplate place.text text template, some parsed, 0⟩
        rules).Yields j vs j' := hj
    exact hkeyed.runChecks_perm hnodup hperm.symm hlist j
  have hdeterministic : e.analyzer.Deterministic := hanalyzer ▸ Catalog.deterministic catalog
  have hfresh : e.Fresh place.text ⟨.ofTemplate place.text text template, some parsed, 0⟩ :=
    ⟨template, parsed, hparse, rfl, rfl⟩
  obtain ⟨j', hyields⟩ := hsorted.analyzeSource hdeterministic (validateRules_sorted hrules) hfresh {}
  have hon : (e.scan place (rules.mergeSort unitsLe)).on { files := tree } = (.ok vs, _) :=
    (Work.on_bind_of_ok (Work.on_read_of_ok hread)).trans (Work.on_ofRun_of_yields hyields)
  exact congrArg Prod.fst hon

theorem exists_repairText (hanalyzer : e.analyzer = Catalog.analyzer catalog)
    (hrules : e.validateRules ids = .ok rules) {options : RepairOptions}
    (hends : e.Ends rules options tree place) (hanswer : e.ChecksAnswer catalog rules options tree place) {text : Text}
    (hread : tree.read place = .ok text) {template : Template} {parsed : σ}
    (hparse : e.language.parse text place.text = .ok (template, parsed)) (j : Journal) :
    ∃ r k j', (e.repairSource text place.text ids options).Yields j r k ∧
      (e.repairText text place.text ids options).Yields j r j' := by
  have hd : (e.language.read text place.text).Yields j
      ⟨.ofTemplate place.text text template, some parsed, j.parsed⟩ { j with parsed := j.parsed + 1 } :=
    read_yields_iff.mpr ⟨template, parsed, hparse, rfl, rfl⟩
  have hfresh : e.Fresh place.text ⟨.ofTemplate place.text text template, some parsed, j.parsed⟩ :=
    ⟨template, parsed, hparse, rfl, rfl⟩
  have hturns : ∀ n q k, e.Reached rules options
      ⟨.ofTemplate place.text text template, some parsed, j.parsed⟩ { j with parsed := j.parsed + 1 } n q k →
      (e.turn rules options n q).Gives fun _ => True := by
    intro n q k h
    have hq := h.fresh hfresh
    obtain ⟨_, parsed', -, -, hparsed⟩ := id hq
    refine gives_turn ?_ hq.wellFormed options n
    rw [hanalyzer]
    exact Catalog.gives_holds hparsed (hanswer text template parsed j n q k hread hparse h _ hparsed)
  obtain ⟨r, k, hrepair⟩ : ∃ r k, (e.repair _ rules options).Yields _ r k := by
    rcases hends with hbounded | hends
    · exact exists_result (validateRules_again hrules) hturns hbounded
    · refine (result_or_reached (validateRules_again hrules) hturns).resolve_right ?_
      rintro ⟨q, k, h⟩
      exact hends text template parsed j q k hread hparse h
  obtain ⟨k', hsource⟩ := repairSource_of_repair hrules hd hrepair
  exact ⟨r, k', _, hsource, .bind hsource (.bind (a := ()) rfl (.pure _ _))⟩

/-- A repair of a file fails where the listing does, for the same reason, and gives a result that counts
what is listed where its checks answer. -/
theorem listed_alone (hanalyzer : e.analyzer = Catalog.analyzer catalog) (hkeyed : catalog.Keyed)
    (hrules : e.validateRules ids = .ok rules)
    (hdry : options.dryRun = true) (hends : e.Ends rules options.repair tree place)
    (hanswer : e.ChecksAnswer catalog rules options.repair tree place) :
    SameOutcome (Counted place) (e.listed tree (rules.mergeSort unitsLe) place)
      (e.alone tree ids options place) := by
  have hdeterministic : e.analyzer.Deterministic := hanalyzer ▸ Catalog.deterministic catalog
  have hsorted := validateAnalysisRules_eq (validateRules_sorted hrules)
  have halone : e.alone tree ids options place =
      ((e.repairFile place ids options.repair options.dryRun).on { files := tree }).1 := rfl
  have hlisted : e.listed tree (rules.mergeSort unitsLe) place =
      ((e.scan place (rules.mergeSort unitsLe)).on { files := tree }).1 := rfl
  rw [repairFile_eq, hdry] at halone
  unfold scan at hlisted
  cases hread : tree.read place with
  | error fault =>
    rw [hlisted, halone, Work.on_bind_of_error (Work.on_read_of_error hread),
      Work.on_bind_of_error (Work.on_read_of_error hread)]
    exact .error fault
  | ok text =>
    rw [Work.on_bind_of_ok (Work.on_read_of_ok hread)] at halone hlisted
    cases hparse : e.language.parse text place.text with
    | error fault =>
      have hanalyze : (e.analyzeSource text place.text (rules.mergeSort unitsLe)).Fails {} fault {} :=
        (Run.yields_lift.mpr ⟨hsorted, rfl⟩).bind_fails (Language.read_fails hparse _).bind
      have hrepair : (e.repairText text place.text ids options.repair).Fails {} fault {} :=
        Run.Fails.bind ((Run.yields_lift.mpr ⟨hrules, rfl⟩).bind_fails
          (Language.read_fails hparse _).bind)
      rw [hlisted, halone, Work.on_ofRun_of_fails hanalyze,
        Work.on_bind_of_error (Work.on_ofRun_of_fails hrepair)]
      exact .error fault
    | ok x =>
      obtain ⟨template, parsed⟩ := x
      obtain ⟨r, k, j', hsource, htext⟩ :=
        exists_repairText hanalyzer hrules hends hanswer hread hparse {}
      obtain ⟨rules', template', parsed', vs, hrules', hparse', hfinds, hcounts⟩ :=
        found_of_repairSource hdeterministic hsource
      cases hrules.symm.trans hrules'
      cases hparse.symm.trans hparse'
      rw [halone, Work.on_bind_of_ok (Work.on_ofRun_of_yields htext),
        listed_of_finds hanalyzer hkeyed hrules hread hparse hfinds]
      unfold writeBack
      dsimp only
      rw [Bool.not_true, Bool.and_false, if_neg Bool.false_ne_true]
      exact .ok ⟨rfl, hcounts⟩

/-- What the miner has counted over these files, when it counts each of them alone. -/
def mined (e : Engine σ) (tree : FileTree) (rules : List String) (places : List Route) : Mining :=
  (places.map fun p => (p, (e.listed tree rules p).map countByRule)).foldl
    (fun (m : Mining) x => m.taken x.1 x.2) (.start rules)

theorem mineProject_on (he : e.analyzer.Steady) {places : List Route} {target : Route}
    {patterns : FilePatterns} (hrules : e.validateAnalysisRules ids = .ok rules)
    (hplaces : tree.discover target patterns = .ok places) (hsize : 1 ≤ size) (root : String)
    (j : Journal) : ∃ left, (e.mineProject root target ids patterns size).on ⟨tree, j⟩ =
      (.ok { root
             ruleIds := rules.mergeSort unitsLe
             files := (e.mined tree (rules.mergeSort unitsLe) places).files.map fun (place, counts) =>
               ⟨place.text, numbered counts⟩
             totals := numbered (e.mined tree (rules.mergeSort unitsLe) places).totals
             filesScanned := places.length
             parseErrors := (e.mined tree (rules.mergeSort unitsLe) places).parseErrors
             failures := (e.mined tree (rules.mergeSort unitsLe) places).failures }, left) := by
  have hrules' : (Work.lift (e.validateAnalysisRules ids)).on ⟨tree, j⟩ = (.ok rules, ⟨tree, j⟩) := by
    rw [hrules]
    rfl
  have hplaces' : (Work.ask (·.discover target patterns)).on ⟨tree, j⟩ = (.ok places, ⟨tree, j⟩) := by
    rw [← hplaces]
    rfl
  obtain ⟨left, hon⟩ := (still_mineFile he (rules.mergeSort unitsLe)).inBatches_eq Mining.take_matches
    hsize places (.start (rules.mergeSort unitsLe)) ⟨tree, j⟩
  simp only [start_mineFile] at hon
  refine ⟨left, ?_⟩
  unfold mineProject
  rw [Work.on_bind_of_ok hrules', Work.on_bind_of_ok hplaces', Work.on_bind_of_ok hon]
  rfl

theorem repairProject_dry (he : e.analyzer.Steady) {places : List Route} {target : Route}
    (habort : options.repair.abortAfter = none) (hdry : options.dryRun = true)
    (hrules : e.validateRules ids = .ok rules)
    (hplaces : tree.discover target options.patterns = .ok places) (hsize : 1 ≤ options.batchSize)
    (root : String) (j : Journal) : ∃ left, (e.repairProject root target ids options).on ⟨tree, j⟩ =
      (.ok (e.gathered tree ids rules options places root), left) := by
  obtain ⟨left, hon⟩ := (still_repairFile he habort rules).inBatches_eq takeRepair_matches hsize places
    { root, statistics := .track {} rules } ⟨tree, j⟩
  have halone (p : Route) : ((e.repairFile p rules options.repair true).start tree).1 =
      e.alone tree ids options p := by
    rw [alone, repairFile_validated hrules, hdry]
  simp only [halone] at hon
  refine ⟨left, ?_⟩
  rw [repairProject_on options hrules hplaces root j, hdry]
  exact hon

/-- A count over a project and a repair of it that writes nothing tell the same. -/
structure Agree (e : Engine σ) (tree : FileTree) (rules : List String) (places : List Route)
    (m : MineReport) (r : ProjectRepair) : Prop where
  ruleIds : m.ruleIds.Perm rules
  /-- A total is the number in the books, unless something is inherited under the name of its rule. -/
  totals : ∀ id ∈ rules, ∃ s, r.statistics.get? id = some s ∧
    (m.totals.lookup id = some (.number (Number.ofNat s.counts.found)) ↔
      Amount.Plain id ∨ id ≠ Amount.lineage ∧ s.counts.found = 0)
  /-- It is the sum of the numbers that the listed files have for the rule. -/
  sums : ∃ counted : List (String × List (String × Amount Nat)),
    m.files = counted.map (fun c => ⟨c.1, numbered c.2⟩) ∧ ∀ id ∈ rules, Amount.Plain id →
      ∃ ns : List Nat, (counted.filterMap fun c => c.2.lookup id) = ns.map .number ∧
        m.totals.lookup id = some (.number (Number.ofNat ns.sum))
  /-- A file is listed if the checks list something for it that can be counted. -/
  listed_iff : ∀ path, path ∈ m.files.map (·.file) ↔
    ∃ p ∈ places, p.text = path ∧ ∃ vs, e.listed tree m.ruleIds p = .ok vs ∧
      ∃ v ∈ vs, v.ruleId ≠ Amount.lineage
  parseErrors : m.parseErrors = r.parseErrors
  failures : m.failures = r.failures
  scanned : m.filesScanned = r.files.length + r.parseErrors.length + r.failures.length

section Agreement

variable {places : List Route} {L : Route → Except Fault (List Violation)}
  {A : Route → Except Fault FileRepair}

theorem notes_eq (h : ∀ p ∈ places, SameOutcome (Counted p) (L p) (A p)) (unparsable : Bool) :
    (places.filterMap fun p => faultNote? unparsable p ((L p).map countByRule)) =
      places.filterMap fun p => note? unparsable p (A p) := by
  refine List.filterMap_congr fun p hp => ?_
  have hp := h p hp
  generalize L p = l at hp
  generalize A p = a at hp
  cases hp with
  | ok => rfl
  | error f => rfl

/-- How many violations of a rule are listed in each file, where any are listed at all. -/
def numbers (L : Route → Except Fault (List Violation)) (places : List Route) (id : String) : List Nat :=
  places.filterMap fun p => (L p).toOption.map fun vs => vs.countP fun v => v.ruleId = id

theorem sum_numbers (h : ∀ p ∈ places, SameOutcome (Counted p) (L p) (A p)) (id : String) :
    (numbers L places id).sum =
      ((places.filterMap fun p => (A p).toOption).map fun f => f.statistics.found id).sum := by
  rw [List.map_filterMap]
  refine congrArg List.sum (List.filterMap_congr fun p hp => ?_)
  have hp := h p hp
  generalize L p = l at hp
  generalize A p = a at hp
  cases hp with
  | error f => rfl
  | ok hcounted => exact congrArg some (hcounted.2 id).symm

theorem entries_eq {id : String} (hid : id ≠ Amount.lineage) (places : List Route) :
    ((places.filterMap fun p => Mining.listing? p ((L p).map countByRule)).filterMap
      fun f => f.2.lookup id) = ((numbers L places id).filter (· ≠ 0)).map (Amount.gain id) := by
  rw [numbers, List.filterMap_filterMap, ← List.filterMap_eq_filter, List.filterMap_filterMap,
    List.map_filterMap]
  refine List.filterMap_congr fun p _ => ?_
  cases L p with
  | error f => rfl
  | ok vs =>
    have hentry : ((Mining.listing? p (.ok (countByRule vs))).bind fun f => f.2.lookup id) =
        (countByRule vs).lookup id := by
      cases countByRule vs <;> rfl
    refine hentry.trans ((lookup_countByRule hid vs).trans ?_)
    simp only [Except.toOption, Option.map_some, Option.bind_some, Option.guard, ne_eq, decide_not]
    split <;> simp [*]

theorem sum_filter_ne_zero (ns : List Nat) : (ns.filter (· ≠ 0)).sum = ns.sum := by
  induction ns with
  | nil => rfl
  | cons n rest ih =>
    rw [List.filter_cons]
    split
    · rw [List.sum_cons, ih, List.sum_cons]
    · next hzero => rw [ih, List.sum_cons, of_not_not (of_decide_eq_false (eq_false_of_ne_true hzero)), Nat.zero_add]

theorem exists_listing?_iff {place : Route} {x : Except Fault (List Violation)} :
    (∃ f, Mining.listing? place (x.map countByRule) = some f) ↔
      ∃ vs, x = .ok vs ∧ ∃ v ∈ vs, v.ruleId ≠ Amount.lineage := by
  cases x with
  | error f => exact iff_of_false (fun ⟨_, h⟩ => nomatch h) fun ⟨_, h, _⟩ => nomatch h
  | ok vs =>
    have hentry : (∃ f, Mining.listing? place (.ok (countByRule vs)) = some f) ↔ countByRule vs ≠ [] := by
      cases countByRule vs with
      | nil => exact iff_of_false (fun ⟨_, h⟩ => nomatch h) fun h => h rfl
      | cons c cs => exact iff_of_true ⟨_, rfl⟩ (List.cons_ne_nil c cs)
    refine hentry.trans ?_
    rw [ne_eq, countByRule_eq_nil_iff]
    push Not
    exact ⟨fun h => ⟨vs, rfl, h⟩, fun ⟨_, h, hsome⟩ => Except.ok.inj h ▸ hsome⟩

theorem fst_of_listing? {place : Route} {x : Except Fault (List (String × Amount Nat))}
    {f : Route × List (String × Amount Nat)} (h : Mining.listing? place x = some f) : f.1 = place := by
  unfold Mining.listing? at h
  split at h
  · rw [← Option.some.inj h]
  · cases h

theorem nodup_of_listing? {place : Route} {x : Except Fault (List Violation)}
    {f : Route × List (String × Amount Nat)}
    (h : Mining.listing? place (x.map countByRule) = some f) : (f.2.map Prod.fst).Nodup := by
  unfold Mining.listing? at h
  split at h
  · next c rest heq =>
    rw [← Option.some.inj h]
    cases x with
    | error f => cases heq
    | ok vs => exact Except.ok.inj heq ▸ nodup_ids_countByRule vs
  · cases h

end Agreement

/-! ## Both together -/

section Mined

variable {places : List Route} {id : String}

theorem tells_mined (e : Engine σ) (tree : FileTree) (rules : List String) (places : List Route) :
    (e.mined tree rules places).Tells rules
      (places.map fun p => (p, (e.listed tree rules p).map countByRule)) :=
  Mining.tells_foldl rules _

theorem files_mined (e : Engine σ) (tree : FileTree) (rules : List String) (places : List Route) :
    (e.mined tree rules places).files =
      places.filterMap fun p => Mining.listing? p ((e.listed tree rules p).map countByRule) := by
  rw [(tells_mined e tree rules places).files, List.filterMap_map]
  rfl

theorem entries_mined (hid : id ≠ Amount.lineage) (places : List Route) :
    ((e.mined tree rules places).files.filterMap fun f => f.2.lookup id) =
      ((numbers (e.listed tree rules) places id).filter (· ≠ 0)).map (Amount.gain id) := by
  rw [files_mined, entries_eq hid]

theorem lookup_totals_mined (hid : id ≠ Amount.lineage) (hmem : id ∈ rules) (places : List Route) :
    (e.mined tree rules places).totals.lookup id =
      some ((((numbers (e.listed tree rules) places id).filter (· ≠ 0)).map (Amount.gain id)).foldl
        Amount.add (.number 0)) := by
  have hnodup : ∀ counts ∈ (e.mined tree rules places).files.map Prod.snd,
      (counts.map Prod.fst).Nodup := by
    intro counts hcounts
    obtain ⟨f, hf, rfl⟩ := List.mem_map.mp hcounts
    rw [files_mined] at hf
    obtain ⟨p, -, hp⟩ := List.mem_filterMap.mp hf
    exact nodup_of_listing? hp
  rw [(tells_mined e tree rules places).totals,
    lookup_foldl_addCounts hid _ hnodup (lookup_start hid hmem), List.filterMap_map, ← entries_mined hid]
  rfl

theorem lookup_totals_mined_of_plain (hid : Amount.Plain id) (hmem : id ∈ rules) (places : List Route) :
    (e.mined tree rules places).totals.lookup id =
      some (.number (numbers (e.listed tree rules) places id).sum) := by
  rw [lookup_totals_mined hid.ne_lineage hmem,
    List.map_congr_left fun n _ => Amount.gain_of_plain hid n, Amount.foldl_add_numbers, Nat.zero_add,
    sum_filter_ne_zero]

/-- A total is the number of the violations where nothing is inherited under the name of the rule, and
otherwise no number, as soon as there is a violation. -/
theorem lookup_totals_mined_cases (e : Engine σ) (tree : FileTree) (hmem : id ∈ rules)
    (places : List Route) :
    (Amount.Plain id ∨ id ≠ Amount.lineage ∧ (numbers (e.listed tree rules) places id).sum = 0) ∧
        (e.mined tree rules places).totals.lookup id =
          some (.number (numbers (e.listed tree rules) places id).sum) ∨
      ¬ (Amount.Plain id ∨ id ≠ Amount.lineage ∧ (numbers (e.listed tree rules) places id).sum = 0) ∧
        ∀ n, (e.mined tree rules places).totals.lookup id ≠ some (.number n) := by
  by_cases hplain : Amount.Plain id
  · exact .inl ⟨.inl hplain, lookup_totals_mined_of_plain hplain hmem places⟩
  by_cases hid : id = Amount.lineage
  · refine .inr ⟨fun h => h.elim hplain fun h => h.1 hid, fun n => ?_⟩
    rw [hid, (tells_mined e tree rules places).totals, lookup_foldl_addCounts_lineage,
      lookup_start_lineage]
    exact nofun
  rw [lookup_totals_mined hid hmem, or_iff_right hplain, and_iff_right hid, ← sum_filter_ne_zero]
  cases hns : (numbers (e.listed tree rules) places id).filter (· ≠ 0) with
  | nil => exact .inl ⟨rfl, rfl⟩
  | cons n rest =>
    have hmem : n ∈ (numbers (e.listed tree rules) places id).filter (· ≠ 0) := by
      rw [hns]
      exact List.mem_cons_self
    have hpos : n ≠ 0 := of_decide_eq_true (List.mem_filter.mp hmem).2
    obtain ⟨s, hs⟩ := Amount.gain_of_inherited hplain n
    obtain ⟨s', hs'⟩ := Amount.foldl_add_words (rest.map (Amount.gain id)) ("0" ++ s)
    refine .inr ⟨?_, fun m => ?_⟩
    · rw [List.sum_cons]
      lia
    · rw [List.map_cons, List.foldl_cons, hs]
      change some ((rest.map (Amount.gain id)).foldl Amount.add (.words ("0" ++ s))) ≠ _
      rw [hs']
      exact nofun

theorem mem_files_mined_iff {path : String} :
    path ∈ (e.mined tree rules places).files.map (·.1.text) ↔
      ∃ p ∈ places, p.text = path ∧ ∃ vs, e.listed tree rules p = .ok vs ∧
        ∃ v ∈ vs, v.ruleId ≠ Amount.lineage := by
  rw [files_mined, List.mem_map]
  constructor
  · rintro ⟨f, hf, rfl⟩
    obtain ⟨p, hp, hentry⟩ := List.mem_filterMap.mp hf
    exact ⟨p, hp, congrArg Route.text (fst_of_listing? hentry).symm, exists_listing?_iff.mp ⟨f, hentry⟩⟩
  · rintro ⟨p, hp, rfl, hlisted⟩
    obtain ⟨f, hentry⟩ := exists_listing?_iff.mpr hlisted
    exact ⟨f, List.mem_filterMap.mpr ⟨p, hp, hentry⟩, congrArg Route.text (fst_of_listing? hentry)⟩

end Mined

theorem projects_refused (hrules : e.validateRules ids = .ok rules) {fault : Fault} {target : Route}
    (hfault : tree.discover target options.patterns = .error fault) (root : String) (j j' : Journal) :
    ((e.mineProject root target ids options.patterns size).on ⟨tree, j⟩).1 = .error fault ∧
      ((e.repairProject root target ids options).on ⟨tree, j'⟩).1 = .error fault := by
  have hask (j : Journal) : (Work.ask (·.discover target options.patterns)).on ⟨tree, j⟩ =
      (.error fault, ⟨tree, j⟩) := by
    rw [← hfault]
    rfl
  have hvalid : (Work.lift (e.validateAnalysisRules ids)).on ⟨tree, j⟩ = (.ok rules, ⟨tree, j⟩) := by
    rw [validateAnalysisRules_eq hrules]
    rfl
  have hvalid' : (Work.lift (e.validateRules ids)).on ⟨tree, j'⟩ = (.ok rules, ⟨tree, j'⟩) := by
    rw [hrules]
    rfl
  unfold mineProject repairProject
  rw [Work.on_bind_of_ok hvalid, Work.on_bind_of_error (hask j), Work.on_bind_of_ok hvalid',
    Work.on_bind_of_error (hask j')]
  exact ⟨rfl, rfl⟩

/-- A count over a project and a repair of it that writes nothing, with the same rules, both fail as the search
for the files does, or come to an end and tell the same, if no check throws on what the repair comes to. The
batches may have any size. -/
theorem mine_agrees (hanalyzer : e.analyzer = Catalog.analyzer catalog) (hkeyed : catalog.Keyed)
    (hrules : e.validateRules ids = .ok rules) (habort : options.repair.abortAfter = none)
    (hdry : options.dryRun = true) (hsize : 1 ≤ size) (hbatch : 1 ≤ options.batchSize)
    (hends : ∀ place, e.Ends rules options.repair tree place)
    (hanswer : ∀ place, e.ChecksAnswer catalog rules options.repair tree place) (root : String)
    (target : Route) (j j' : Journal) :
    (∀ fault, tree.discover target options.patterns = .error fault →
      ((e.mineProject root target ids options.patterns size).on ⟨tree, j⟩).1 = .error fault ∧
      ((e.repairProject root target ids options).on ⟨tree, j'⟩).1 = .error fault) ∧
    ∀ places, tree.discover target options.patterns = .ok places → ∃ m r,
      ((e.mineProject root target ids options.patterns size).on ⟨tree, j⟩).1 = .ok m ∧
      ((e.repairProject root target ids options).on ⟨tree, j'⟩).1 = .ok r ∧
      e.Agree tree rules places m r := by
  refine ⟨fun fault hfault => projects_refused hrules hfault root j j', fun places hplaces => ?_⟩
  have hsteady : e.analyzer.Steady := hanalyzer ▸ Catalog.steady catalog
  obtain ⟨left, hmine⟩ := mineProject_on hsteady (validateAnalysisRules_eq hrules) hplaces hsize root j
  obtain ⟨left', hrepair⟩ := repairProject_dry hsteady habort hdry hrules hplaces hbatch root j'
  obtain ⟨-, hwise⟩ := gathered_fileWise e tree ids rules options places root
  have hperm := List.mergeSort_perm rules unitsLe
  have htells := tells_mined e tree (rules.mergeSort unitsLe) places
  have hsame : ∀ p ∈ places, SameOutcome (Counted p) (e.listed tree (rules.mergeSort unitsLe) p)
      (e.alone tree ids options p) :=
    fun p _ => listed_alone hanalyzer hkeyed hrules hdry (hends p) (hanswer p)
  refine ⟨_, _, congrArg Prod.fst hmine, congrArg Prod.fst hrepair, hperm, fun id hid => ?_, ?_, fun path => ?_,
    ?_, ?_, ?_⟩
  · obtain ⟨s, hs⟩ := Option.isSome_iff_exists.mp
      (Statistics.isSome_get?.mpr ((hwise.statistics.listed id).mpr (.inl hid)))
    have hfound : s.counts.found = (numbers (e.listed tree (rules.mergeSort unitsLe)) places id).sum := by
      have hentry : s.counts.found =
          Statistics.found (e.gathered tree ids rules options places root).statistics id := by
        rw [Statistics.found, Statistics.entry, hs]
        rfl
      rw [hentry, hwise.statistics.found, List.map_map, hwise.files, sum_numbers hsame]
      rfl
    refine ⟨s, hs, ?_⟩
    rw [hfound, lookup_numbered]
    rcases lookup_totals_mined_cases e tree (hperm.mem_iff.mpr hid) places with
      ⟨hcond, htotal⟩ | ⟨hcond, htotal⟩
    · refine iff_of_true ?_ hcond
      rw [htotal]
      rfl
    · exact iff_of_false (numbered_ne_number htotal _) hcond
  · refine ⟨(e.mined tree (rules.mergeSort unitsLe) places).files.map fun f => (f.1.text, f.2), ?_,
      fun id hid hplain => ⟨(numbers (e.listed tree (rules.mergeSort unitsLe)) places id).filter (· ≠ 0), ?_, ?_⟩⟩
    · rw [List.map_map]
      rfl
    · rw [List.filterMap_map, ← List.map_congr_left fun n _ => Amount.gain_of_plain hplain n,
        ← entries_mined hplain.ne_lineage]
      rfl
    · rw [lookup_numbered, lookup_totals_mined_of_plain hplain (hperm.mem_iff.mpr hid), sum_filter_ne_zero]
      rfl
  · dsimp only
    rw [List.map_map]
    exact mem_files_mined_iff
  · rw [hwise.parseErrors, ← notes_eq hsame]
    exact htells.parseErrors.trans (List.filterMap_map ..)
  · rw [hwise.failures, ← notes_eq hsame]
    exact htells.failures.trans (List.filterMap_map ..)
  · have hpaths := hwise.paths.length_eq
    rw [ProjectRepair.paths, List.length_append, List.length_append, List.length_map, List.length_map,
      List.length_map, List.length_map] at hpaths
    exact hpaths.symm

theorem allAnswer_markRules (parsed : Marks.MarksFile) : Catalog.AllAnswer markRules parsed ["a", "b"] := by
  intro id hid check hcheck
  rcases List.mem_cons.mp hid with rfl | hid
  · cases hcheck
    exact ⟨_, rfl⟩
  · obtain rfl := List.mem_singleton.mp hid
    cases hcheck
    exact ⟨_, rfl⟩

def rehearsal : ProjectOptions := { patterns := ⟨["*"], []⟩, dryRun := true }

/-- Two files with a violation each, and one that cannot be parsed. -/
theorem mine_agrees_shelf : ∃ m r,
    ((renamer.mineProject "/" ⟨[]⟩ ["a", "b"] rehearsal.patterns 1).on ⟨shelf, {}⟩).1 = .ok m ∧
    ((renamer.repairProject "/" ⟨[]⟩ ["a", "b"] rehearsal).on ⟨shelf, {}⟩).1 = .ok r ∧
    renamer.Agree shelf ["a", "b"] [⟨["a"]⟩, ⟨["b"]⟩, ⟨["c"]⟩] m r := by
  have hrules : renamer.validateRules ["a", "b"] = .ok ["a", "b"] := by rfl
  have hends (place : Route) : renamer.Ends ["a", "b"] rehearsal.repair shelf place :=
    .inl (.inl Cap.noConfusion)
  have hanswer (place : Route) : renamer.ChecksAnswer markRules ["a", "b"] rehearsal.repair shelf place :=
    fun _ _ _ _ _ _ _ _ _ _ parsed' _ => allAnswer_markRules parsed'
  exact (mine_agrees rfl keyed_markRules hrules rfl rfl (by decide) (by decide) hends hanswer "/" ⟨[]⟩
    {} {}).2 _ discover_shelf

/-- Flags the marks of kind A under an id, and renames them. -/
def naming (id : String) : Engine Marks.MarksFile where
  language := Marks.language
  analyzer := Catalog.analyzer
    (.ofList [(id, Marks.ScriptedCheck.toCheck { id, name := id, kinds := some ["A"] })])
  processors := .ofList [(id, relabel id "<B>")]

theorem runs_naming (id : String) (hrules : (naming id).validateRules [id] = .ok [id]) : ∃ m r,
    (((naming id).mineProject "/" ⟨["a"]⟩ [id] .standard 1).on ⟨lone, {}⟩).1 = .ok m ∧
    (((naming id).repairProject "/" ⟨["a"]⟩ [id] { dryRun := true }).on ⟨lone, {}⟩).1 = .ok r ∧
    m.totals = numbered ((naming id).mined lone [id] [⟨["a"]⟩]).totals ∧
    (m.files = [] ↔ ((naming id).mined lone [id] [⟨["a"]⟩]).files = []) ∧
    r = (naming id).gathered lone [id] [id] { dryRun := true } [⟨["a"]⟩] "/" := by
  have hdiscover (patterns : FilePatterns) : lone.discover ⟨["a"]⟩ patterns = .ok [⟨["a"]⟩] := by
    have hdirectory : lone.isDirectory ⟨["a"]⟩ = false := by decide +kernel
    have hfile : lone.isFile ⟨["a"]⟩ = true := by decide +kernel
    rw [FileTree.discover, hdirectory, hfile]
    rfl
  obtain ⟨left, hmine⟩ := mineProject_on (Catalog.steady _) (validateAnalysisRules_eq hrules)
    (hdiscover .standard) (Int.le_refl 1) "/" {}
  have habort : ({ dryRun := true } : ProjectOptions).repair.abortAfter = none := rfl
  obtain ⟨left', hrepair⟩ := repairProject_dry (Catalog.steady _) habort rfl hrules
    (hdiscover .standard) (by decide) "/" {}
  rw [List.mergeSort_singleton] at hmine
  exact ⟨_, _, congrArg Prod.fst hmine, congrArg Prod.fst hrepair, rfl, List.map_eq_nil_iff, rfl⟩

/-- Under a name that is inherited, the violation that a repair finds is counted as words, and under one
of them not at all; then its file is not listed. -/
theorem mine_disagrees_inherited :
    (∃ m r, (((naming "constructor").mineProject "/" ⟨["a"]⟩ ["constructor"] .standard 1).on
        ⟨lone, {}⟩).1 = .ok m ∧
      (((naming "constructor").repairProject "/" ⟨["a"]⟩ ["constructor"] { dryRun := true }).on
        ⟨lone, {}⟩).1 = .ok r ∧
      r.statistics.found "constructor" = 1 ∧
      m.totals = [("constructor", .words "0function Object() \x7b [native code] \x7d1")]) ∧
    ∃ m r, (((naming "__proto__").mineProject "/" ⟨["a"]⟩ ["__proto__"] .standard 1).on
        ⟨lone, {}⟩).1 = .ok m ∧
      (((naming "__proto__").repairProject "/" ⟨["a"]⟩ ["__proto__"] { dryRun := true }).on
        ⟨lone, {}⟩).1 = .ok r ∧
      r.statistics.found "__proto__" = 1 ∧ m.totals = [] ∧ m.files = [] := by
  constructor
  · obtain ⟨m, r, hmine, hrepair, htotals, -, rfl⟩ := runs_naming "constructor" rfl
    exact ⟨m, _, hmine, hrepair, by decide +kernel, htotals.trans (by decide +kernel)⟩
  · obtain ⟨m, r, hmine, hrepair, htotals, hfiles, rfl⟩ := runs_naming "__proto__" rfl
    exact ⟨m, _, hmine, hrepair, by decide +kernel, htotals.trans (by decide +kernel),
      hfiles.mpr (by decide +kernel)⟩

end Engine
end LintRepair
