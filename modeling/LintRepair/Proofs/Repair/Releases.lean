import LintRepair.Proofs.Repair.Results

/-!
# Every file is given back once

A run owns the files that it reads. It gives each of them back once, whether it returns or fails, but
for the one that it returns; a file that it was given stays with its owner. Along the loop of a run
the invariant names the files that are held at the moment, which are the one under repair and, while
a pass is committed, the next one.
-/
namespace LintRepair

variable {σ : Type} {j j' j₀ : Journal} {spared held : List Nat} {initial : Nat}

namespace Journal

/-- Between two journals every file that was parsed is given back once, but for the spared ones, which
are not given back; no other file is given back. -/
def GivesBackAllBut (j j' : Journal) (spared : List Nat) : Prop :=
  ∃ back, j'.released = j.released ++ back ∧
    ∀ n, back.count n = if j.parsed ≤ n ∧ n < j'.parsed ∧ n ∉ spared then 1 else 0

/-- Of the files parsed since the first journal those that are not spared are either given back or
held, each once. -/
structure Settled (j₀ : Journal) (spared held : List Nat) (j : Journal) : Prop where
  parsed_le : j₀.parsed ≤ j.parsed
  released : ∃ back, j.released = j₀.released ++ back ∧ ∀ n, back.count n + held.count n =
    if j₀.parsed ≤ n ∧ n < j.parsed ∧ n ∉ spared then 1 else 0

/-- The number of a file, unless it is spared. -/
def besides (spared : List Nat) (n : Nat) : List Nat := if n ∈ spared then [] else [n]

theorem settled_self (j : Journal) (spared : List Nat) : j.Settled spared [] j where
  parsed_le := Nat.le_refl _
  released := by
    refine ⟨[], (List.append_nil _).symm, fun n => ?_⟩
    rw [if_neg (by lia)]
    rfl

namespace Settled

theorem congr (h : j₀.Settled spared held j) (hparsed : j'.parsed = j.parsed)
    (hreleased : j'.released = j.released) : j₀.Settled spared held j' where
  parsed_le := hparsed ▸ h.parsed_le
  released := by
    rw [hparsed, hreleased]
    exact h.released

theorem acquire (h : j₀.Settled spared held j) :
    j₀.Settled spared (held ++ besides spared j.parsed) { j with parsed := j.parsed + 1 } where
  parsed_le := Nat.le_succ_of_le h.parsed_le
  released := by
    obtain ⟨back, hback, hcount⟩ := h.released
    refine ⟨back, hback, fun n => ?_⟩
    have hn := hcount n
    have hle := h.parsed_le
    rw [List.count_append]
    unfold besides
    dsimp only
    by_cases hfresh : n = j.parsed
    · subst hfresh
      rw [if_neg (by lia)] at hn
      by_cases hspared : j.parsed ∈ spared
      · rw [if_pos hspared, if_neg fun h => h.2.2 hspared, List.count_nil]
        lia
      · rw [if_neg hspared, if_pos ⟨hle, Nat.lt_succ_self _, hspared⟩, List.count_singleton_self]
        lia
    · have hother : List.count n (if j.parsed ∈ spared then [] else [j.parsed]) = 0 := by
        split
        · rfl
        · exact List.count_eq_zero.mpr fun h => hfresh (List.mem_singleton.mp h)
      have hrange : (j₀.parsed ≤ n ∧ n < j.parsed + 1 ∧ n ∉ spared) ↔
          (j₀.parsed ≤ n ∧ n < j.parsed ∧ n ∉ spared) := by lia
      rw [hother, Nat.add_zero, hn]
      simp only [hrange]

theorem release {n : Nat} (h : j₀.Settled spared (n :: held) j) :
    j₀.Settled spared held { j with released := j.released ++ [n] } where
  parsed_le := h.parsed_le
  released := by
    obtain ⟨back, hback, hcount⟩ := h.released
    refine ⟨back ++ [n], by rw [← List.append_assoc, ← hback], fun m => ?_⟩
    have hm := hcount m
    rw [List.count_cons] at hm
    rw [List.count_append, List.count_singleton]
    dsimp only
    lia

theorem adopt (h : Settled { j with parsed := j.parsed + 1 } [j.parsed] held j') :
    j.Settled [] (j.parsed :: held) j' where
  parsed_le := Nat.le_of_succ_le h.parsed_le
  released := by
    obtain ⟨back, hback, hcount⟩ := h.released
    refine ⟨back, hback, fun n => ?_⟩
    have hn := hcount n
    have hle := h.parsed_le
    dsimp only at hn hle
    simp only [List.count_cons, List.mem_singleton, List.not_mem_nil, not_false_eq_true, and_true,
      beq_iff_eq] at hn ⊢
    grind

theorem of_mem_held {n : Nat} (h : j₀.Settled spared held j) (hn : n ∈ held) :
    j₀.parsed ≤ n ∧ n < j.parsed := by
  obtain ⟨back, -, hcount⟩ := h.released
  have hcount := hcount n
  have hpos := List.count_pos_iff.mpr hn
  split at hcount
  · next hrange => exact ⟨hrange.1, hrange.2.1⟩
  · lia

theorem givesBackAllBut (h : j₀.Settled spared held j) :
    j₀.GivesBackAllBut j (spared ++ held) := by
  obtain ⟨back, hback, hcount⟩ := h.released
  refine ⟨back, hback, fun n => ?_⟩
  have hn := hcount n
  by_cases hheld : n ∈ held
  · have hpos := List.count_pos_iff.mpr hheld
    rw [if_neg fun h => h.2.2 (List.mem_append_right _ hheld)]
    split at hn
    · lia
    · lia
  · rw [List.count_eq_zero.mpr hheld, Nat.add_zero] at hn
    rw [hn]
    simp only [List.mem_append, hheld, or_false]

theorem givesBackAllBut_besides {n m : Nat} (h : j₀.Settled [n] (besides [n] m) j) :
    j₀.GivesBackAllBut j [n, m] := by
  obtain ⟨back, hback, hcount⟩ := h.givesBackAllBut
  refine ⟨back, hback, fun i => ?_⟩
  rw [hcount]
  unfold besides
  split
  · next hm =>
    obtain rfl := List.mem_singleton.mp hm
    simp
  · rfl

end Settled
end Journal

open Journal Run

/-- The run neither takes a file nor gives one back, also when it fails. -/
def Run.KeepsFiles {α : Type} (x : Run α) : Prop :=
  ∀ j, let j' := (Id.run (StateT.run (ExceptT.run x) j)).2
    j'.parsed = j.parsed ∧ j'.released = j.released

theorem Run.KeepsFiles.leaves {α : Type} {x : Run α} (hx : x.KeepsFiles) :
    x.Leaves (j₀.Settled spared held) (fun _ => j₀.Settled spared held)
      (j₀.Settled spared held) := by
  intro j hj
  obtain ⟨hparsed, hreleased⟩ := hx j
  generalize Id.run (StateT.run (ExceptT.run x) j) = result at hparsed hreleased
  obtain ⟨r, j'⟩ := result
  cases r with
  | error f => exact hj.congr hparsed hreleased
  | ok a => exact hj.congr hparsed hreleased

theorem Run.Speaks.keepsFiles {α : Type} {x : Run α} (hx : x.Speaks) : x.KeepsFiles := by
  obtain ⟨r, entries, hr⟩ := hx
  intro j
  rw [hr]
  exact ⟨rfl, rfl⟩

/-- The checks neither take files nor give them back. -/
def Analyzer.KeepsFiles (a : Analyzer σ) : Prop := ∀ d rules, (a.runChecks d rules).KeepsFiles

theorem Catalog.keepsFiles (catalog : Catalog σ) : (Catalog.analyzer catalog).KeepsFiles :=
  fun d rules => (speaks_runChecks catalog d rules).keepsFiles

theorem Language.read_leaves_number {E : Journal → Prop} (language : Language σ) (text : Text)
    (file : String) (hE : E j₀) :
    (language.read text file).Leaves (· = j₀)
      (fun d j => d.number = j₀.parsed ∧ j = { j₀ with parsed := j₀.parsed + 1 }) E := by
  rintro j rfl
  unfold Language.read
  cases language.parse text file with
  | error f => exact hE
  | ok x => exact ⟨rfl, rfl⟩

theorem tryBatch_leaves {E : Journal → Prop} (language : Language σ) (t : Tree)
    (sets : List EditSet) (mode : RenderMode) :
    (tryBatch language t sets mode).Leaves (j₀.Settled spared held)
      (fun result => match result with
        | .ok next => j₀.Settled spared (held ++ besides spared next.number)
        | .error _ => j₀.Settled spared held) E := by
  unfold tryBatch
  split
  · exact leaves_pure fun _ => id
  split
  · exact leaves_pure fun _ => id
  · next text _ =>
    intro j hj
    unfold Language.read
    cases language.parse text t.filePath with
    | error f => exact hj
    | ok x => exact hj.acquire

theorem runPass_leaves (shop : Workshop σ) (d : Document σ) (budget : Budget)
    (requested : RenderMode) (st : PassState) :
    (runPass shop d budget requested st).Leaves (j₀.Settled spared held)
      (fun x => match x.2 with
        | .committed next => j₀.Settled spared (held ++ besides spared next.number)
        | .stopped _ => j₀.Settled spared held)
      (j₀.Settled spared held) := by
  unfold runPass
  refine (st.speaks_rounds shop d budget _).keepsFiles.leaves.bind fun final => ?_
  refine (Run.speaks_lift _).keepsFiles.leaves.bind fun selection => ?_
  split
  · exact leaves_pure fun _ => id
  refine (tryBatch_leaves _ _ _ _).bind fun result => ?_
  cases result with
  | error f => exact (Run.speaks_log _).keepsFiles.leaves.bind fun _ => leaves_pure fun _ => id
  | ok next =>
    dsimp only
    split
    · exact (Run.speaks_log _).keepsFiles.leaves.bind fun _ => leaves_pure fun _ => id
    · exact leaves_pure fun _ => id

namespace Engine

variable {e : Engine σ} {rules ids : List String} {options : RepairOptions} {p : Progress σ}
  {number : Nat} {text : Text} {file : String} {d : Document σ}

theorem keepsFiles_interrupted (options : RepairOptions) : (interrupted options).KeepsFiles := by
  unfold interrupted
  cases options.abortAfter with
  | none => exact fun j => ⟨rfl, rfl⟩
  | some n => exact fun j => ⟨rfl, rfl⟩

theorem look_leaves (p : Progress σ) (options : RepairOptions) :
    (p.look options).Leaves (j₀.Settled spared held) (fun _ => j₀.Settled spared held)
      (j₀.Settled spared held) := by
  unfold Progress.look
  split
  · exact leaves_pure fun _ => id
  · exact (keepsFiles_interrupted options).leaves

theorem turn_leaves (he : e.analyzer.KeepsFiles) (rules : List String) (options : RepairOptions)
    (number : Nat) (p : Progress σ) :
    (e.turn rules options number p).Leaves (j₀.Settled spared held)
      (fun x j => match x.2 with
        | none => j₀.Settled spared (held ++ besides spared x.1.document.number) j
        | some _ => x.1.document = p.document ∧ j₀.Settled spared held j)
      (j₀.Settled spared held) := by
  rw [turn_eq]
  refine (he p.document rules).leaves.bind fun remaining => ?_
  unfold conclude
  refine (look_leaves _ _).bind fun aborted => ?_
  split
  · exact leaves_pure fun _ hj => ⟨rfl, hj⟩
  unfold makePass
  refine (runPass_leaves _ _ _ _ _).bind fun x => ?_
  obtain ⟨st, outcome⟩ := x
  cases outcome with
  | stopped reason =>
    exact (Run.speaks_log _).keepsFiles.leaves.bind fun _ => leaves_pure fun _ hj => ⟨rfl, hj⟩
  | committed next =>
    exact (Run.speaks_log _).keepsFiles.leaves.bind fun _ => leaves_pure fun _ => id

theorem releaseUnless_leaves {E : Journal → Prop} (initial : Nat) (d : Document σ) :
    (releaseUnless initial d).Leaves (j₀.Settled [initial] (besides [initial] d.number ++ held))
      (fun _ => j₀.Settled [initial] held) E := by
  unfold releaseUnless besides
  by_cases hinitial : d.number = initial
  · rw [if_pos hinitial, if_pos (List.mem_singleton.mpr hinitial)]
    exact leaves_pure fun _ => id
  · rw [if_neg hinitial, if_neg fun h => hinitial (List.mem_singleton.mp h)]
    exact leaves_release fun _ => Settled.release

theorem releaseUnless_throw_leaves {α : Type} {Q : α → Journal → Prop} (initial : Nat)
    (d : Document σ) (f : Fault) :
    (releaseUnless initial d >>= fun _ => throw f : Run α).Leaves
      (j₀.Settled [initial] (besides [initial] d.number)) Q (j₀.Settled [initial] []) := by
  have hrelease : (releaseUnless initial d).Leaves
      (j₀.Settled [initial] (besides [initial] d.number ++ [])) (fun _ => j₀.Settled [initial] [])
      (j₀.Settled [initial] []) := releaseUnless_leaves initial d
  rw [List.append_nil] at hrelease
  exact hrelease.bind fun _ => leaves_throw fun _ => id

/-- The loop holds the file under repair, unless that is the one it was given, and nothing when it
fails. -/
theorem turns_leaves (he : e.analyzer.KeepsFiles) (j₀ : Journal) (rules : List String)
    (options : RepairOptions) (initial fuel number : Nat) (p : Progress σ) :
    (e.turns rules options initial fuel number p).Leaves
      (j₀.Settled [initial] (besides [initial] p.document.number))
      (fun x => j₀.Settled [initial] (besides [initial] x.1.document.number))
      (j₀.Settled [initial] []) := by
  induction fuel generalizing number p with
  | zero => exact releaseUnless_throw_leaves initial p.document _
  | succ fuel ih =>
    -- A turn holds the file under repair all along: whoever catches its fault still has to give it back.
    rw [turns]
    refine ((turn_leaves he rules options number p).tryCatch fun f =>
      releaseUnless_throw_leaves initial p.document f).bind fun x => ?_
    obtain ⟨next, stop⟩ := x
    cases stop with
    | some reason =>
      refine leaves_pure fun j hj => ?_
      rw [hj.1]
      exact hj.2
    | none => exact (releaseUnless_leaves initial p.document).bind fun _ => ih (number + 1) next

theorem repair_leaves (he : e.analyzer.KeepsFiles) (d : Document σ) (ids : List String)
    (options : RepairOptions) (j₀ : Journal) :
    (e.repair d ids options).Leaves (· = j₀)
      (fun r => j₀.Settled [d.number] (besides [d.number] r.document.number))
      (j₀.Settled [d.number] []) := by
  have hopening : besides [d.number] d.number = [] := if_pos (List.mem_singleton_self _)
  have hself : ∀ j, j = j₀ → j₀.Settled [d.number] [] j := fun j hj => hj ▸ settled_self j _
  unfold repair
  refine Leaves.bind (Q := fun _ => j₀.Settled [d.number] []) ?_ fun rules => ?_
  · exact leaves_lift (fun _ _ => hself) hself
  refine Leaves.bind (Q := fun x => j₀.Settled [d.number] (besides [d.number] x.1.document.number))
    ?_ fun x => ?_
  · have hturns := turns_leaves he j₀ rules options d.number
      (turnLimit options.budget e.processors.entries.length options.patience +
        silentLooks options) 1
      { document := d, statistics := Statistics.track {} rules }
    rwa [hopening] at hturns
  · exact leaves_pure fun _ => id

/-- The file that is read at the start of a repair is given back unless it is returned. -/
theorem repairSource_leaves (he : e.analyzer.KeepsFiles) (text : Text) (file : String)
    (ids : List String) (options : RepairOptions) (j₀ : Journal) :
    (e.repairSource text file ids options).Leaves (· = j₀)
      (fun r => j₀.Settled [] [r.document.number]) (j₀.Settled [] []) := by
  have hstart := settled_self j₀ []
  unfold repairSource
  refine Leaves.bind (Q := fun _ => (· = j₀)) ?_ fun rules => ?_
  · exact leaves_lift (fun _ _ _ => id) fun _ h => h ▸ hstart
  refine (e.language.read_leaves_number text file hstart).bind fun d => leaves_and fun hd => ?_
  -- The repair spares the file that was just read, which therefore counts as held from here on.
  have hrepair := repair_leaves he d rules options { j₀ with parsed := j₀.parsed + 1 }
  rw [hd] at hrepair ⊢
  have hadopted := hrepair.mono (fun _ _ => Settled.adopt) fun _ => Settled.adopt
  refine (hadopted.tryCatch fun f => ?_).bind fun r => ?_
  · exact (leaves_release fun _ => Settled.release).bind fun _ => leaves_throw fun _ => id
  · unfold besides
    by_cases hreturned : r.document.number = j₀.parsed
    · rw [if_pos (List.mem_singleton.mpr hreturned), if_neg (not_not_intro hreturned)]
      refine leaves_pure fun j hj => ?_
      rwa [hreturned]
    · rw [if_neg fun h => hreturned (List.mem_singleton.mp h), if_pos hreturned]
      exact (leaves_release fun _ => Settled.release).bind fun _ => leaves_pure fun _ => id

theorem analyzeSource_leaves (he : e.analyzer.KeepsFiles) (text : Text) (file : String)
    (ids : List String) (j₀ : Journal) :
    (e.analyzeSource text file ids).Leaves (· = j₀) (fun _ => j₀.Settled [] [])
      (j₀.Settled [] []) := by
  have hstart := settled_self j₀ []
  unfold analyzeSource
  refine Leaves.bind (Q := fun _ => (· = j₀)) ?_ fun rules => ?_
  · exact leaves_lift (fun _ _ _ => id) fun _ h => h ▸ hstart
  refine (e.language.read_leaves_number text file hstart).bind fun d => leaves_and fun hd => ?_
  rw [hd]
  have hheld : ∀ j, j = { j₀ with parsed := j₀.parsed + 1 } → j₀.Settled [] [j₀.parsed] j :=
    fun j hj => hj ▸ (settled_self _ _).adopt
  have hchecks : (e.analyzer.runChecks d rules).Leaves (j₀.Settled [] [j₀.parsed])
      (fun _ => j₀.Settled [] [j₀.parsed]) (j₀.Settled [] [j₀.parsed]) := (he d rules).leaves
  refine Leaves.bind (Q := fun _ => j₀.Settled [] []) (.tryCatch (R := j₀.Settled [] [j₀.parsed])
    (Leaves.bind (fun j hj => hchecks j (hheld j hj)) fun vs => ?_) fun f => ?_) fun x => ?_
  · exact (leaves_release fun _ => Settled.release).bind fun _ => leaves_pure fun _ => id
  · exact (leaves_release fun _ => Settled.release).bind fun _ =>
      (leaves_throw (Q := fun _ _ => False) fun _ => id).bind fun _ _ => False.elim
  · cases x with
    | error vs => exact leaves_pure fun _ => id
    | ok r => exact leaves_pure fun _ => id

/-- Every file that is read is given back once or returned. When a repair of a text gives a result,
the file of the result is not given back and every other file that it read is, once; when it or an
analysis fails, every file that was read is given back once. A file that is handed to a repair is never
given back by it. -/
theorem gives_back_once (e : Engine σ) (he : e.analyzer.KeepsFiles) (j j' : Journal) :
    (∀ text file ids options r, (e.repairSource text file ids options).Yields j r j' →
      (j.parsed ≤ r.document.number ∧ r.document.number < j'.parsed) ∧
      j.GivesBackAllBut j' [r.document.number]) ∧
    (∀ text file ids options f, (e.repairSource text file ids options).Fails j f j' →
      j.GivesBackAllBut j' []) ∧
    (∀ text file ids vs, (e.analyzeSource text file ids).Yields j vs j' →
      j.GivesBackAllBut j' []) ∧
    (∀ text file ids f, (e.analyzeSource text file ids).Fails j f j' →
      j.GivesBackAllBut j' []) ∧
    (∀ d ids options r, (e.repair d ids options).Yields j r j' →
      j.GivesBackAllBut j' [d.number, r.document.number]) ∧
    ∀ d ids options f, (e.repair d ids options).Fails j f j' → j.GivesBackAllBut j' [d.number] := by
  refine ⟨fun text file ids options r h => ?_, fun text file ids options f h => ?_,
    fun text file ids vs h => ?_, fun text file ids f h => ?_, fun d ids options r h => ?_,
    fun d ids options f h => ?_⟩
  · have hsettled := (repairSource_leaves he text file ids options j).of_yields rfl h
    exact ⟨hsettled.of_mem_held (List.mem_singleton_self _), hsettled.givesBackAllBut⟩
  · exact ((repairSource_leaves he text file ids options j).of_fails rfl h).givesBackAllBut
  · exact ((analyzeSource_leaves he text file ids j).of_yields rfl h).givesBackAllBut
  · exact ((analyzeSource_leaves he text file ids j).of_fails rfl h).givesBackAllBut
  · exact ((repair_leaves he d ids options j).of_yields rfl h).givesBackAllBut_besides
  · exact ((repair_leaves he d ids options j).of_fails rfl h).givesBackAllBut

/-- Renames marks, but fails to analyze a text with a mark of kind C. -/
def halting : Engine Marks.MarksFile :=
  { renamer with
    analyzer := Catalog.analyzer (.ofList [
      ("a", Marks.ScriptedCheck.toCheck { id := "a", name := "a", kinds := some ["A"] }),
      ("b", Marks.ScriptedCheck.toCheck
        { id := "b", name := "b", kinds := some ["B"], throwOn := some (.ofString "<C>") })]) }

/-- Of the files of a run that renames a mark once and fails after the second time, none is left. With
one pass the run returns its second file. -/
theorem gives_back_once_halting :
    (∃ f j', (halting.repairSource (.ofString "<A>x") "f" ["a", "b"] {}).Fails {} f j' ∧
      Journal.GivesBackAllBut {} j' []) ∧
    ∃ r j', (halting.repairSource (.ofString "<A>x") "f" ["a", "b"]
        { budget := { passes := .atMost 1 } }).Yields {} r j' ∧
      r.document.number = 1 ∧ Journal.GivesBackAllBut {} j' [1] := by
  obtain ⟨f, j', hfails⟩ := Run.exists_fails (j := {})
    (x := halting.repairSource (.ofString "<A>x") "f" ["a", "b"] {}) (by decide +kernel)
  obtain ⟨r, k', hrun, hnumber⟩ := Run.exists_yields (j := {})
    (x := halting.repairSource (.ofString "<A>x") "f" ["a", "b"]
      { budget := { passes := .atMost 1 } })
    (f := fun r => r.document.number) (b := 1) (by decide +kernel)
  have hends := fun j' => gives_back_once halting (Catalog.keepsFiles _) {} j'
  refine ⟨⟨f, j', hfails, (hends j').2.1 _ _ _ _ f hfails⟩, r, k', hrun, hnumber, ?_⟩
  rw [← hnumber]
  exact ((hends k').1 _ _ _ _ r hrun).2

end Engine
end LintRepair
