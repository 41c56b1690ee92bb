import LintRepair.Command.Run
import LintRepair.Proofs.Project.Census
import LintRepair.Proofs.Project.Windows

/-!
# Files worked on side by side

What becomes of the number of files that a command line wants to be worked on side by side. A repair
refuses a number below one before it looks for files. The miner takes every number as it is, and its
batches come to an end for those from one on.
-/
namespace LintRepair

/-! ## Numbers below one -/

/-- A number that is not a whole one from one on. -/
def Number.Low (x : Number) : Prop := ∀ i, x.toInt? = some i → i < 1

theorem Number.low_zero : (Number.decimal 0 0).Low := by
  intro i h
  have : 0 = i := Option.some.inj h
  lia

theorem Number.low_signed {n : Int} (hn : n < 0) (ce : Nat × Int) : (ofDecimal.signed n ce).Low := by
  intro i h
  rw [ofDecimal.signed, if_pos hn, toInt?] at h
  split at h
  · have hle : -(ce.1 : Int) * (tenTo ce.2.toNat : Nat) ≤ 0 :=
      Int.mul_nonpos_of_nonpos_of_nonneg (by lia) (by lia)
    have := Option.some.inj h
    lia
  · split at h
    · have := Option.some.inj h
      lia
    · cases h

theorem Number.low_ofInt {n : Int} (hn : n < 1) : (Number.ofInt n).Low := by
  have hinf : negInfinity.Low := fun _ h => by cases h
  unfold ofInt ofDecimal
  dsimp only
  split
  · exact low_zero
  · have hneg : n < 0 := by lia
    rw [if_pos hneg]
    split
    · exact hinf
    · split
      · exact low_zero
      · split
        · exact low_signed hneg _
        · split
          · exact low_zero
          · split
            · exact hinf
            · exact low_signed hneg _

theorem positiveWhole_some {name : String} {x : Number} {r : Option Nat}
    (h : positiveWhole name (some x) = .ok r) :
    ∃ i, x.toInt? = some i ∧ 1 ≤ i ∧ r = some i.toNat := by
  simp only [positiveWhole] at h
  split at h
  · next i hi =>
    split at h
    · next hle => exact ⟨i, hi, hle, (Except.ok.inj h).symm⟩
    · cases h
  · cases h

theorem Except.exists_of_bind {ε α β : Type} {x : Except ε α} {f : α → Except ε β} {b : β}
    (h : x >>= f = .ok b) : ∃ a, x = .ok a ∧ f a = .ok b := by
  cases x with
  | error e => cases h
  | ok a => exact ⟨a, rfl, h⟩

/-- A number on the command line wins, and settings hold none below one. -/
theorem RepairSettings.concurrency_of_resolve {config : Config} {o : Overrides} {x : Number}
    {settings : RepairSettings} (hx : o.concurrency = some x)
    (h : RepairSettings.resolve config o = .ok settings) :
    ∃ i, x.toInt? = some i ∧ 1 ≤ i ∧ settings.concurrency = some i.toNat := by
  unfold resolve at h
  extract_lets rules finish at h
  obtain ⟨mode, h⟩ : ∃ mode, finish mode = .ok settings := by
    split at h
    · exact ⟨_, h⟩
    · split at h
      · exact ⟨_, h⟩
      · cases h
  dsimp only [finish] at h
  split at h
  · cases h
  obtain ⟨repairs, -, h⟩ := Except.exists_of_bind h
  obtain ⟨passes, -, h⟩ := Except.exists_of_bind h
  obtain ⟨concurrency, hconcurrency, h⟩ := Except.exists_of_bind h
  obtain ⟨timeout, -, h⟩ := Except.exists_of_bind h
  obtain rfl := Except.ok.inj h
  rw [hx] at hconcurrency
  obtain ⟨i, hi, hle, rfl⟩ := positiveWhole_some hconcurrency
  exact ⟨i, hi, hle, rfl⟩

/-! ## Commands -/

namespace Work

variable {α β : Type}

/-- The computation only looks at a session. -/
def Looks (x : Work α) : Prop := ∀ s, (x.on s).2 = s

theorem looks_pure (a : α) : (pure a : Work α).Looks := fun _ => rfl

theorem looks_lift (r : Except Fault α) : (lift r).Looks := fun _ => rfl

theorem looks_ask (question : FileTree → Except Fault α) : (ask question).Looks := fun _ => rfl

theorem Looks.settle {x : Work α} (hx : x.Looks) : x.settle.Looks := hx

theorem Looks.bind {x : Work α} {f : α → Work β} (hx : x.Looks) (hf : ∀ a, (f a).Looks) :
    (x >>= f).Looks := by
  intro s
  cases hends : x.on s with
  | mk r s' =>
    obtain rfl : s' = s := by rw [← hx s, hends]
    cases r with
    | error f => rw [on_bind_of_error hends]
    | ok a => rw [on_bind_of_ok hends, hf a]

end Work

theorem Config.looks_load (project : Route) (named : Option String) :
    (Config.load project named).Looks := by
  have hfile : ∀ place, (Config.ofFile place).Looks := by
    intro place
    refine (Work.looks_ask _).settle.bind fun r => ?_
    cases r with
    | error f => exact Work.looks_lift (.error _)
    | ok content =>
      dsimp only
      split
      · exact Work.looks_lift (.error _)
      · exact Work.looks_pure _
  refine (Work.looks_ask _).bind fun there => ?_
  dsimp only
  split
  · split
    · exact Work.looks_lift (.error _)
    · exact Work.looks_pure _
  · refine (hfile _).settle.bind fun r => ?_
    cases r with
    | error f => exact Work.looks_lift (.error _)
    | ok c => exact Work.looks_pure _

/-- Files are worked off in batches of a size: the loop over the batches ends, and every file has had
its turn once, in the order in which the files were found. -/
structure WorkedOff {β : Type} (size : Int) (places : List Route) (work : Route → Work β)
    (ends : List (Route × Except Fault β)) (s s' : Session) : Prop where
  ended : ∃ bs, Windows size places 0 bs
  once : ends.map Prod.fst = places
  inTurn : InTurn work ends s s'

namespace Console

variable (c : Console) {target : String} {w : Words} {value : String} {n : Int} {s : Session}

/-- What a repair settles before it reads the first file. -/
def repairOpening (target : String) (w : Words) :
    Work (RepairSettings × List String × List Route) := do
  let config ← Config.load c.directory (w.value? "config")
  let settings ← Work.lift (RepairSettings.resolve config (overrides w))
  let rules ← Work.lift ((Rules.engine settings.indentSize).validateRules settings.rules)
  let places ← Work.ask (·.discover (c.directory.resolve target) settings.files)
  return (settings, rules, places)

/-- What a repair does with one file. -/
def repairOne (w : Words) (settings : RepairSettings) (rules : List String) (place : Route) :
    Work FileRepair :=
  (Rules.engine settings.indentSize).repairFile place rules (c.repairOptions settings)
    (w.has "dry-run")

/-- What a repair says when it has come to the end of the files. -/
def repairClosing (w : Words) (settings : RepairSettings) (result : ProjectRepair) :
    Work Closing := do
  let report := result.report
  let shown := if w.has "json" then report.json (w.has "dry-run") else (c.style w).repair report
  match ← (c.writeReport w settings report).settle with
  | .ok more => return ⟨shown :: more, !report.parseErrors.isEmpty || !report.failures.isEmpty, none⟩
  | .error f => return ⟨[shown], true, some f⟩

theorem repair_eq (target : String) (w : Words) : c.repair target w = (do
    let (settings, rules, places) ← c.repairOpening target w
    let size := (settings.concurrency.map Int.ofNat).getD (batchSizeFor c.processors)
    let result ← inBatches size places (c.repairOne w settings rules) Engine.takeRepair
      { root := target, statistics := Statistics.track {} rules }
    c.repairClosing w settings result) := by
  unfold repair repairOpening Engine.repairProject
  simp only [bind_assoc, pure_bind]
  rfl

/-- What the miner settles before it reads the first file. -/
def mineOpening (target : String) (w : Words) : Work (Config × List String × List Route) := do
  let config ← Config.load c.directory (w.value? "config")
  let rules ← Work.lift ((Rules.engine ({} : Config).render.indentSize).validateAnalysisRules
    ((namedRules w).getD Rules.sharedChecks.ids))
  let places ← Work.ask (·.discover (c.directory.resolve target) config.files)
  return (config, rules.mergeSort unitsLe, places)

/-- What the miner does with one file. -/
def mineOne (rules : List String) (place : Route) : Work (List (String × Amount Nat)) :=
  (Rules.engine ({} : Config).render.indentSize).mineFile place rules

/-- What the miner says when it has come to the end of the files. -/
def mineClosing (target : String) (w : Words) (rules : List String) (places : List Route)
    (mined : Mining) : Closing :=
  let report : MineReport :=
    { root := target
      ruleIds := rules
      files := mined.files.map fun (place, counts) => ⟨place.text, numbered counts⟩
      totals := numbered mined.totals
      filesScanned := places.length
      parseErrors := mined.parseErrors
      failures := mined.failures }
  ⟨[if w.has "json" then report.json else (c.style w).mine report], false, none⟩

theorem mine_eq (target : String) (w : Words) : c.mine target w = (do
    let (config, rules, places) ← c.mineOpening target w
    let size := (w.whole? "concurrency").or (config.concurrency.map Int.ofNat)
    let mined ← inBatches (size.getD (batchSizeFor c.processors)) places (mineOne rules) Mining.take
      (.start rules)
    return c.mineClosing target w rules places mined) := by
  unfold mine mineOpening Engine.mineProject
  simp only [bind_assoc, pure_bind]
  rfl

theorem looks_repairOpening (target : String) (w : Words) : (c.repairOpening target w).Looks :=
  (Config.looks_load _ _).bind fun _ => (Work.looks_lift _).bind fun _ =>
    (Work.looks_lift _).bind fun _ => (Work.looks_ask _).bind fun _ => Work.looks_pure _

theorem looks_mineOpening (target : String) (w : Words) : (c.mineOpening target w).Looks :=
  (Config.looks_load _ _).bind fun _ => (Work.looks_lift _).bind fun _ =>
    (Work.looks_ask _).bind fun _ => Work.looks_pure _

section Number

variable (hvalue : w.value? "concurrency" = some value) (hn : parseInteger value = .ok n)
include hvalue hn

theorem whole_concurrency : w.whole? "concurrency" = some n := by
  rw [Words.whole?, hvalue, Option.bind_some, hn]
  rfl

theorem one_le_of_resolve {config : Config} {settings : RepairSettings}
    (h : RepairSettings.resolve config (overrides w) = .ok settings) :
    1 ≤ n ∧ 1 ≤ (settings.concurrency.map Int.ofNat).getD (batchSizeFor c.processors) := by
  have hconcurrency : (overrides w).concurrency = some (Number.ofInt n) := by
    simp only [overrides, wholeNumber, whole_concurrency hvalue hn, Option.map_some]
  obtain ⟨i, hi, hle, hsettings⟩ := RepairSettings.concurrency_of_resolve hconcurrency h
  constructor
  · by_cases hlow : n < 1
    · have := Number.low_ofInt hlow i hi
      lia
    · lia
  · rw [hsettings, Option.map_some, Option.getD_some, Int.ofNat_eq_natCast]
    lia

theorem repair_refused (hlow : n < 1) (target : String) : ∃ refusal : Config → Fault,
    c.repair target w = Config.load c.directory (w.value? "config") >>= fun config =>
      Work.lift (.error (refusal config)) := by
  have hrefused : ∀ config, ∃ f, RepairSettings.resolve config (overrides w) = .error f := by
    intro config
    cases hends : RepairSettings.resolve config (overrides w) with
    | error f => exact ⟨f, rfl⟩
    | ok settings =>
      have := (c.one_le_of_resolve hvalue hn hends).1
      lia
  choose refusal hrefusal using hrefused
  refine ⟨refusal, ?_⟩
  unfold repair
  congr 1
  funext config
  rw [hrefusal]
  rfl

end Number

theorem exists_resolve_of_opening {settings : RepairSettings} {rules : List String}
    {places : List Route} (h : (c.repairOpening target w).on s = (.ok (settings, rules, places), s)) :
    ∃ config, RepairSettings.resolve config (overrides w) = .ok settings := by
  obtain ⟨config, s₁, -, h⟩ := Work.exists_of_on_bind h
  obtain ⟨settings', s₂, hresolve, h⟩ := Work.exists_of_on_bind h
  obtain ⟨rules', s₃, -, h⟩ := Work.exists_of_on_bind h
  obtain ⟨places', s₄, -, h⟩ := Work.exists_of_on_bind h
  obtain rfl : settings' = settings := congrArg Prod.fst (Except.ok.inj (congrArg Prod.fst h))
  exact ⟨config, congrArg Prod.fst hresolve⟩

theorem repair_of_opening_error {fault : Fault}
    (h : (c.repairOpening target w).on s = (.error fault, s)) :
    (c.repair target w).on s = (.error fault, s) := by
  rw [repair_eq, Work.on_bind_of_error h]

theorem mine_of_opening_error {fault : Fault}
    (h : (c.mineOpening target w).on s = (.error fault, s)) :
    (c.mine target w).on s = (.error fault, s) := by
  rw [mine_eq, Work.on_bind_of_error h]

theorem repair_workedOff {settings : RepairSettings} {rules : List String} {places : List Route}
    (h : (c.repairOpening target w).on s = (.ok (settings, rules, places), s)) {size : Int}
    (hsize : (settings.concurrency.map Int.ofNat).getD (batchSizeFor c.processors) = size)
    (hle : 1 ≤ size) :
    ∃ ends left, WorkedOff size places (c.repairOne w settings rules) ends s left ∧
      (c.repair target w).on s = (c.repairClosing w settings (ends.foldl (fun r x => r.taken x.1 x.2)
        { root := target, statistics := .track {} rules })).on left := by
  have hwindows := exists_windows places hle (Int.le_refl 0)
  obtain ⟨ends, left, hon, honce, hturns⟩ := inBatches_inTurn (c.repairOne w settings rules)
    Engine.takeRepair_matches hwindows { root := target, statistics := .track {} rules } s
  refine ⟨ends, left, ⟨⟨_, hwindows⟩, honce, hturns⟩, ?_⟩
  rw [repair_eq, Work.on_bind_of_ok h]
  dsimp only
  rw [hsize, Work.on_bind_of_ok hon]

theorem mine_workedOff {config : Config} {rules : List String} {places : List Route}
    (h : (c.mineOpening target w).on s = (.ok (config, rules, places), s)) {size : Int}
    (hsize : w.whole? "concurrency" = some size) (hle : 1 ≤ size) :
    ∃ ends left, WorkedOff size places (mineOne rules) ends s left ∧
      (c.mine target w).on s = (.ok (c.mineClosing target w rules places
        (ends.foldl (fun m x => m.taken x.1 x.2) (.start rules))), left) := by
  have hwindows := exists_windows places hle (Int.le_refl 0)
  obtain ⟨ends, left, hon, honce, hturns⟩ := inBatches_inTurn (mineOne rules) Mining.take_matches
    hwindows (.start rules) s
  refine ⟨ends, left, ⟨⟨_, hwindows⟩, honce, hturns⟩, ?_⟩
  rw [mine_eq, Work.on_bind_of_ok h]
  dsimp only
  rw [hsize, Option.some_or, Option.getD_some, Work.on_bind_of_ok hon]
  rfl

theorem not_windows_of_low (hlow : n < 1) {places : List Route} (hplaces : places ≠ []) :
    ¬ ∃ bs, Windows n places 0 bs := by
  rintro ⟨bs, hbs⟩
  have hpos := List.length_pos_iff.mpr hplaces
  have := hbs.one_le (by lia)
  lia

/-- What a number of files to be worked on side by side comes to. A repair refuses one below one
before it looks for files. Otherwise either command fails before it reads the first file, or works
off all that it has found. The miner does so for a number from one on, and goes round without an end
for another one. -/
theorem concurrency_spec (hvalue : w.value? "concurrency" = some value)
    (hn : parseInteger value = .ok n) (target : String) (s : Session) :
    ((n < 1 → ∃ refusal : Config → Fault,
        c.repair target w = Config.load c.directory (w.value? "config") >>= fun config =>
          Work.lift (.error (refusal config))) ∧
      (∀ fault, ((c.repairOpening target w).on s).1 = .error fault →
        (c.repair target w).on s = (.error fault, s)) ∧
      (∀ settings rules places,
        ((c.repairOpening target w).on s).1 = .ok (settings, rules, places) →
        ∃ size ends left, WorkedOff size places (c.repairOne w settings rules) ends s left ∧
          (c.repair target w).on s =
            (c.repairClosing w settings (ends.foldl (fun r x => r.taken x.1 x.2)
              { root := target, statistics := .track {} rules })).on left)) ∧
    ((∀ fault, ((c.mineOpening target w).on s).1 = .error fault →
        (c.mine target w).on s = (.error fault, s)) ∧
      (∀ config rules places, ((c.mineOpening target w).on s).1 = .ok (config, rules, places) →
        (1 ≤ n → ∃ ends left, WorkedOff n places (mineOne rules) ends s left ∧
          (c.mine target w).on s = (.ok (c.mineClosing target w rules places
            (ends.foldl (fun m x => m.taken x.1 x.2) (.start rules))), left)) ∧
        (n < 1 → places ≠ [] → ¬ ∃ bs, Windows n places 0 bs))) := by
  have hrepair := c.looks_repairOpening target w s
  have hmine := c.looks_mineOpening target w s
  refine ⟨⟨fun hlow => c.repair_refused hvalue hn hlow target, ?_, ?_⟩, ?_, ?_⟩
  · exact fun fault h => c.repair_of_opening_error (Prod.ext h hrepair)
  · intro settings rules places h
    have hopening : (c.repairOpening target w).on s = (.ok (settings, rules, places), s) :=
      Prod.ext h hrepair
    obtain ⟨config, hresolve⟩ := c.exists_resolve_of_opening hopening
    exact ⟨_, c.repair_workedOff hopening rfl (c.one_le_of_resolve hvalue hn hresolve).2⟩
  · exact fun fault h => c.mine_of_opening_error (Prod.ext h hmine)
  · intro config rules places h
    have hopening : (c.mineOpening target w).on s = (.ok (config, rules, places), s) :=
      Prod.ext h hmine
    exact ⟨c.mine_workedOff hopening (whole_concurrency hvalue hn), fun hlow => not_windows_of_low hlow⟩

/-- A project of one file. -/
def soleProject : FileTree := { files := [(⟨["a.ts"]⟩, { content := .ofString "var a = 1;\n" })] }

/-- A command line that names that file, a rule and how many files are to be worked on side by side. -/
def soleWords (value : String) : Words :=
  { given := [("rules", "no-var"), ("concurrency", value)], operands := ["a.ts"] }

def soleConsole : Console := { directory := ⟨[]⟩ }

theorem load_soleProject (j : Journal) :
    (Config.load ⟨[]⟩ none).on ⟨soleProject, j⟩ = (.ok {}, ⟨soleProject, j⟩) := by
  have hthere : soleProject.isThere (Config.place ⟨[]⟩) = false := by
    rw [Config.place, Route.resolve, Path.components_eq]
    decide +kernel
  have hask : (Work.ask fun t => .ok (t.isThere (Config.place ⟨[]⟩))).on ⟨soleProject, j⟩ =
      (.ok false, ⟨soleProject, j⟩) := by
    rw [← hthere]
    rfl
  rw [Config.load, Option.filter_none]
  dsimp only
  rw [Work.on_bind_of_ok hask]
  rfl

theorem validate_noVar : (Rules.engine ({} : Config).render.indentSize).validateAnalysisRules
    ["no-var"] = .ok ["no-var"] := by
  have hsupports : (Catalog.analyzer Rules.sharedChecks).supports "no-var" = true := by
    decide +kernel
  unfold Engine.validateAnalysisRules
  rw [show firstOccurrences ["no-var"] = ["no-var"] from rfl]
  simp only [Rules.engine, List.isEmpty_cons, Bool.false_eq_true, if_false, List.filter_cons,
    hsupports, Bool.not_true, List.filter_nil, List.isEmpty_nil, if_true]

theorem discover_soleProject (patterns : FilePatterns) :
    soleProject.discover (Route.resolve ⟨[]⟩ "a.ts") patterns = .ok [⟨["a.ts"]⟩] := by
  have hplace : Route.resolve ⟨[]⟩ "a.ts" = ⟨["a.ts"]⟩ := by
    rw [Route.resolve, Path.components_eq]
    decide +kernel
  have hdirectory : soleProject.isDirectory ⟨["a.ts"]⟩ = false := by decide +kernel
  have hfile : soleProject.isFile ⟨["a.ts"]⟩ = true := by decide +kernel
  rw [hplace, FileTree.discover, hdirectory, hfile]
  rfl

theorem mineOpening_sole (value : String) (j : Journal) :
    (soleConsole.mineOpening "a.ts" (soleWords value)).on ⟨soleProject, j⟩ =
      (.ok ({}, ["no-var"], [⟨["a.ts"]⟩]), ⟨soleProject, j⟩) := by
  have hrules : namedRules (soleWords value) = some ["no-var"] := by
    have hparsed : parseRuleList "no-var" = ["no-var"] := by decide +kernel
    change (some "no-var").map parseRuleList = _
    rw [Option.map_some, hparsed]
  have hvalid : (Work.lift ((Rules.engine ({} : Config).render.indentSize).validateAnalysisRules
      ["no-var"])).on ⟨soleProject, j⟩ = (.ok ["no-var"], ⟨soleProject, j⟩) := by
    rw [validate_noVar]
    rfl
  have hfound : (Work.ask (·.discover (Route.resolve ⟨[]⟩ "a.ts") ({} : Config).files)).on
      ⟨soleProject, j⟩ = (.ok [⟨["a.ts"]⟩], ⟨soleProject, j⟩) := by
    rw [← discover_soleProject ({} : Config).files]
    rfl
  unfold mineOpening
  rw [show (soleWords value).value? "config" = none from rfl,
    show soleConsole.directory = ⟨[]⟩ from rfl, Work.on_bind_of_ok (load_soleProject j), hrules,
    Option.getD_some, Work.on_bind_of_ok hvalid, Work.on_bind_of_ok hfound,
    List.mergeSort_singleton]
  rfl

theorem concurrency_spec_sole :
    (soleWords "2").value? "concurrency" = some "2" ∧ parseInteger "2" = .ok 2 ∧
    ∃ ends left, WorkedOff 2 [⟨["a.ts"]⟩] (mineOne ["no-var"]) ends ⟨soleProject, {}⟩ left ∧
      (soleConsole.mine "a.ts" (soleWords "2")).on ⟨soleProject, {}⟩ =
        (.ok (soleConsole.mineClosing "a.ts" (soleWords "2") ["no-var"] [⟨["a.ts"]⟩]
          (ends.foldl (fun m x => m.taken x.1 x.2) (.start ["no-var"]))), left) := by
  have hvalue : (soleWords "2").value? "concurrency" = some "2" := rfl
  have hn : parseInteger "2" = .ok 2 := by rfl
  have hopening := congrArg Prod.fst (mineOpening_sole "2" {})
  have hmine := (soleConsole.concurrency_spec hvalue hn "a.ts" ⟨soleProject, {}⟩).2.2
  exact ⟨hvalue, hn, (hmine _ _ _ hopening).1 (by decide)⟩

/-- Batches of no files at all go round over the one file for ever. -/
theorem mine_endless :
    (soleWords "0").value? "concurrency" = some "0" ∧ parseInteger "0" = .ok 0 ∧
    ((soleConsole.mineOpening "a.ts" (soleWords "0")).on ⟨soleProject, {}⟩).1 =
      .ok ({}, ["no-var"], [⟨["a.ts"]⟩]) ∧
    (¬ ∃ bs, Windows 0 [(⟨["a.ts"]⟩ : Route)] 0 bs) ∧
    ((soleConsole.mine "a.ts" (soleWords "0")).on ⟨soleProject, {}⟩).1 =
      .error (.endlessBatches 0) := by
  have hvalue : (soleWords "0").value? "concurrency" = some "0" := rfl
  have hn : parseInteger "0" = .ok 0 := by rfl
  have hopening := mineOpening_sole "0" {}
  refine ⟨hvalue, hn, by rw [hopening], not_windows_of_low (by decide) (by simp), ?_⟩
  rw [mine_eq, Work.on_bind_of_ok hopening]
  dsimp only
  rw [whole_concurrency hvalue hn, Option.some_or, Option.getD_some]
  rfl

end Console
end LintRepair
