import LintRepair.Proofs.Project.Census
import LintRepair.Proofs.Project.Windows
import LintRepair.Proofs.Report.Occurrences

/-!
# What reports name

A run on a project works on every file that it has found, and what the work on a file comes to decides which list
of the result the file is in. The reports are printed from these lists. All of them name a file that could not be
processed, with the reason, but for the one that the miner prints for people: it leaves the failures out.
-/
namespace LintRepair

/-! ## Notes and files in reports -/

/-- A note as it reads for people. -/
def FileNote.reading (label : String) (n : FileNote) : String :=
  "✗ " ++ label ++ ": " ++ n.file ++ "\n   " ++ n.message

/-- The name and the message of a note as they stand for machines. -/
def FileNote.fields (n : FileNote) : String :=
  "\"file\": " ++ Value.quoted n.file ++ ",\n      \"message\": " ++ Value.quoted n.message

theorem FileNote.occurs_fields (n : FileNote) : Occurs n.fields (Value.layoutAt 2 n.toValue) := by
  have horder : Value.inKeyOrder [("file", Value.quoted n.file), ("message", Value.quoted n.message)] =
      [("file", Value.quoted n.file), ("message", Value.quoted n.message)] := by
    have hfile : Value.indexKey? "file" = none := by decide
    have hmessage : Value.indexKey? "message" = none := by decide
    simp [Value.inKeyOrder, hfile, hmessage]
  have hlines : n.fields = "\"file\": " ++ Value.quoted n.file ++ ",\n" ++ ("      " ++
      ("\"message\": " ++ Value.quoted n.message)) := by
    have hbreak : ",\n      \"message\": " = ",\n" ++ ("      " ++ "\"message\": ") := by decide
    rw [fields, hbreak]
    simp only [String.append_assoc]
  have hlayout : Value.layoutAt 2 n.toValue = Value.bracketed "\x7b" "\x7d" 2
      ["\"file\": " ++ Value.quoted n.file, "\"message\": " ++ Value.quoted n.message] := by
    have hfile : Value.quoted "file" ++ ": " = "\"file\": " := by decide
    have hmessage : Value.quoted "message" ++ ": " = "\"message\": " := by decide
    rw [toValue, Value.layoutAt, Value.layoutFields_eq]
    simp only [List.map_cons, List.map_nil, Value.layoutAt]
    rw [horder]
    simp only [List.map_cons, List.map_nil, hfile, hmessage]
  have hindent : Value.indent 3 = "      " := by decide
  rw [hlayout, Value.bracketed, if_neg (by simp)]
  simp only [List.map_cons, List.map_nil, String.intercalate_cons_cons, String.intercalate_singleton, hindent]
  refine ((Occurs.left (.right ⟨"      ", "", ?_⟩ _) _).left _).left _
  rw [hlines, String.append_empty]
  simp only [String.append_assoc]

theorem occurs_file {fields : List (String × Value)} {file : String}
    (h : ("file", .text file) ∈ fields) (level : Nat) :
    Occurs ("\"file\": " ++ Value.quoted file) (Value.layoutAt level (.record fields)) := by
  have hfield := Value.occurs_field h level
  have hquoted : Value.quoted "file" ++ ": " = "\"file\": " := by decide
  rwa [Value.layoutAt, hquoted] at hfield

namespace HumanStyle

variable {r : RepairReport} {m : MineReport} {n : FileNote}

theorem shows_noteLines (h : HumanStyle) (label : String) (n : FileNote) {lines : List String}
    (hlines : h.noteLines label n <:+: lines) :
    h.Shows (n.reading label) ("\n".intercalate lines) := by
  refine ⟨_, ?_, occurs_intercalate hlines "\n"⟩
  have hreading : n.reading label =
      "✗" ++ " " ++ label ++ ": " ++ n.file ++ "\n" ++ ("   " ++ n.message) := by
    have hmark : "✗ " = "✗" ++ " " := by decide
    have hbreak : "\n   " = "\n" ++ "   " := by decide
    rw [FileNote.reading, hmark, hbreak]
    simp only [String.append_assoc]
  rw [hreading, noteLines, String.intercalate_cons_cons, String.intercalate_singleton]
  exact (((((h.wears_red _).append (h.wears_refl _)).append (h.wears_red _)).append (h.wears_refl _)).append
    (h.wears_refl _)).append (h.wears_refl _) |>.append ((h.wears_refl _).append (h.wears_dim _))

theorem infix_block (lines : List String) : lines <:+: block lines := by
  unfold block
  split
  · next hempty => rw [List.isEmpty_iff.mp hempty]
  · exact List.infix_append' [] lines [""]

theorem infix_flatMap {α : Type} {f : α → List String} {xs : List α} {x : α} (h : x ∈ xs) :
    f x <:+: xs.flatMap f := by
  rw [List.flatMap_def]
  exact List.infix_of_mem_flatten (List.mem_map_of_mem h)

theorem occurs_filePath (h : HumanStyle) (f : FileReport) :
    ∃ line ∈ h.fileLines f, Occurs (": " ++ f.filePath ++ " (") line := by
  refine ⟨_, List.mem_cons_self, ((((Occurs.left ?_ _).left _).left _).left _)⟩
  generalize (if f.remaining.isEmpty then h.green "✓" else h.yellow "⚠") = icon
  generalize (if f.changed then h.green (if h.dryRun then "WOULD CHANGE" else "CHANGED")
    else h.dim "UNCHANGED") = status
  refine ⟨icon ++ " " ++ status, "", ?_⟩
  rw [String.append_empty]
  simp only [String.append_assoc]

theorem infix_repairLines (h : HumanStyle) (r : RepairReport) :
    ((r.files.filter fun f => f.changed || !f.remaining.isEmpty || h.verbose).flatMap h.fileLines ++
      r.parseErrors.flatMap (h.noteLines "SKIPPED") ++ r.failures.flatMap (h.noteLines "FAILED")) <:+:
        h.repairLines r := by
  unfold repairLines
  dsimp only
  simp only [List.append_assoc]
  exact (infix_block _).trans (List.prefix_append _ _).isInfix

end HumanStyle

/-- The reports of a repair name a file that could not be repaired, with the reason. -/
structure RepairReport.Blames (r : RepairReport) (place : Route) (fault : Fault) : Prop where
  people : ∀ h : HumanStyle, h.Shows
    (FileNote.reading (if fault.isSyntaxError then "SKIPPED" else "FAILED") ⟨place.text, fault.message⟩)
    (h.repair r)
  machines : ∀ dryRun order, Occurs (FileNote.fields ⟨place.text, fault.message⟩) (r.json dryRun order)

/-- The reports of a repair name a file among the repaired ones. -/
structure RepairReport.Lists (r : RepairReport) (place : Route) : Prop where
  people : ∀ h : HumanStyle, Occurs (": " ++ place.text ++ " (") (h.repair r)
  machines : ∀ dryRun order, Occurs ("\"file\": " ++ Value.quoted place.text) (r.json dryRun order)

namespace RepairReport

variable {r : RepairReport} {place : Route} {fault : Fault}

theorem blames_of_note (h : ⟨place.text, fault.message⟩ ∈
    if fault.isSyntaxError then r.parseErrors else r.failures) : r.Blames place fault := by
  constructor
  · intro style
    refine style.shows_noteLines _ _ (List.IsInfix.trans ?_ (style.infix_repairLines r))
    split at h
    · rename_i hsyntax
      rw [if_pos hsyntax]
      exact (HumanStyle.infix_flatMap h).trans ((List.suffix_append _ _).isInfix.trans
        (List.prefix_append _ _).isInfix)
    · rename_i hsyntax
      rw [if_neg hsyntax]
      exact (HumanStyle.infix_flatMap h).trans (List.suffix_append _ _).isInfix
  · intro dryRun order
    refine (FileNote.occurs_fields _).trans ?_
    unfold json Value.json
    split at h
    · exact Value.occurs_listed "parse_errors" (by simp) (List.mem_map_of_mem h) 0
    · exact Value.occurs_listed "failures" (by simp) (List.mem_map_of_mem h) 0

theorem lists_of_remaining {f : FileReport} (hf : f ∈ r.files) (hpath : f.filePath = place.text)
    (hremaining : f.remaining ≠ []) : r.Lists place := by
  constructor
  · intro h
    have hshown : f ∈ r.files.filter fun f => f.changed || !f.remaining.isEmpty || h.verbose :=
      List.mem_filter.mpr ⟨hf, by simp [hremaining]⟩
    have hlines : h.fileLines f <:+: h.repairLines r :=
      (HumanStyle.infix_flatMap hshown).trans (((List.prefix_append _ _).isInfix.trans
        (List.prefix_append _ _).isInfix).trans (h.infix_repairLines r))
    obtain ⟨line, hline, hname⟩ := h.occurs_filePath f
    rw [hpath] at hname
    exact hname.trans (occurs_line (hlines.subset hline) "\n")
  · intro dryRun order
    have hname : Occurs ("\"file\": " ++ Value.quoted place.text) (Value.layoutAt 2 f.toValue) := by
      rw [← hpath, FileReport.toValue]
      exact occurs_file List.mem_cons_self 2
    refine hname.trans ?_
    unfold json Value.json
    exact Value.occurs_listed "files" (by simp) (List.mem_map_of_mem hf) 0

end RepairReport

/-- What the miner prints for machines names a file that could not be processed, with the reason. -/
structure MineReport.Blames (m : MineReport) (place : Route) (fault : Fault) : Prop where
  /-- For people it does if the file could not be parsed. -/
  people : fault.isSyntaxError = true → ∀ h : HumanStyle,
    h.Shows ("Skipped " ++ place.text ++ ": " ++ fault.message) (h.mine m)
  machines : ∀ order, Occurs (FileNote.fields ⟨place.text, fault.message⟩) (m.json order)

/-- The reports of the miner name a file among those with violations. -/
structure MineReport.Lists (m : MineReport) (place : Route) : Prop where
  people : ∀ h : HumanStyle, Occurs place.text (h.mine m)
  machines : ∀ order, Occurs ("\"file\": " ++ Value.quoted place.text) (m.json order)

namespace MineReport

variable {m : MineReport} {place : Route} {fault : Fault}

theorem blames_of_note (h : ⟨place.text, fault.message⟩ ∈
    if fault.isSyntaxError then m.parseErrors else m.failures) : m.Blames place fault := by
  constructor
  · intro hsyntax style
    rw [if_pos hsyntax] at h
    refine ⟨_, style.wears_red _, occurs_line ?_ "\n"⟩
    exact List.mem_append_right _ (List.mem_map.mpr ⟨_, h, rfl⟩)
  · intro order
    refine (FileNote.occurs_fields _).trans ?_
    unfold json Value.json
    split at h
    · exact Value.occurs_listed "parse_errors" (by simp) (List.mem_map_of_mem h) 0
    · exact Value.occurs_listed "failures" (by simp) (List.mem_map_of_mem h) 0

theorem lists_of_mem {f : MinedFile} (hf : f ∈ m.files) (hfile : f.file = place.text) : m.Lists place := by
  constructor
  · intro h
    have hlines : HumanStyle.minedLines f <:+: h.mineLines m := by
      unfold HumanStyle.mineLines
      simp only [List.append_assoc]
      exact (HumanStyle.infix_flatMap hf).trans
        ((HumanStyle.infix_block _).trans (List.prefix_append _ _).isInfix)
    rw [← hfile]
    exact occurs_line (hlines.subset List.mem_cons_self) "\n"
  · intro order
    have hname : Occurs ("\"file\": " ++ Value.quoted place.text)
        (Value.layoutAt 2 (order.arrange f.toValue)) := by
      rw [← hfile, MinedFile.toValue]
      cases order with
      | asRecorded => exact occurs_file List.mem_cons_self 2
      | byName => exact occurs_file (List.mem_mergeSort.mpr List.mem_cons_self) 2
    have hitem : order.arrange f.toValue ∈ m.files.map fun f => order.arrange f.toValue :=
      List.mem_map_of_mem hf
    refine hname.trans ?_
    unfold json Value.json
    exact Value.occurs_listed "files" (by simp) hitem 0

end MineReport

/-! ## Runs -/

section Turns

variable {α β γ : Type} {work : α → Work β} {take : γ → α → Except Fault β → Work γ}
  {taken : γ → α → Except Fault β → γ} {ends : List (α × Except Fault β)} {s s' : Session}

theorem InTurn.exists_on (h : InTurn work ends s s') {x : α} {r : Except Fault β} (hx : (x, r) ∈ ends) :
    ∃ s₁ s₂, (work x).on s₁ = (r, s₂) := by
  induction h with
  | done h => cases hx
  | @next y _ _ _ s₁ s₂ _ h hy rest ih =>
    rcases List.mem_cons.mp hx with heq | hx
    · obtain ⟨rfl, rfl⟩ := Prod.mk.inj heq
      exact ⟨s₁, s₂, hy⟩
    · exact ih hx

/-- Where batches have come to an end, every member has had its turn. -/
theorem exists_inTurn (htake : ∀ c x r, Matches (Session.Alike Eq) Eq (take c x r) (pure (taken c x r)))
    {size : Int} {xs : List α} {start c : γ} (h : (inBatches size xs work take start).on s = (.ok c, s')) :
    ∃ ends, c = ends.foldl (fun c y => taken c y.1 y.2) start ∧ ends.map Prod.fst = xs ∧
      InTurn work ends s s' := by
  obtain ⟨bs, s₁, hbs, -⟩ := Work.exists_of_on_bind h
  have hbatches : batches size xs = .ok bs := congrArg Prod.fst hbs
  obtain ⟨ends, left, hon, hxs, hturns⟩ :=
    inBatches_inTurn work htake (windows_iff_batches.mpr hbatches) start s
  obtain ⟨hc, rfl⟩ := Prod.mk.inj (h.symm.trans hon)
  exact ⟨ends, Except.ok.inj hc, hxs, hturns⟩

end Turns

namespace Engine

variable {σ : Type} {e : Engine σ} {root : String} {target : Route} {ids : List String} {s left : Session}

/-- A run of the repair over a project, told by what became of every file that it has found. -/
structure Repaired (e : Engine σ) (target : Route) (ids : List String) (options : ProjectOptions)
    (s left : Session) (ends : List (Route × Except Fault FileRepair)) (r : ProjectRepair) : Prop where
  found : s.files.discover target options.patterns = .ok (ends.map Prod.fst)
  inTurn : ∃ rules, e.validateRules ids = .ok rules ∧
    InTurn (fun p => e.repairFile p rules options.repair options.dryRun) ends s left
  blames : ∀ p fault, (p, .error fault) ∈ ends → ∀ duration,
    { r.report with durationMs := duration : RepairReport }.Blames p fault
  lists : ∀ p file, (p, .ok file) ∈ ends → file.remaining ≠ [] → ∀ duration,
    { r.report with durationMs := duration : RepairReport }.Lists p

/-- Whatever list of places is worked off, the reports name the files that could not be repaired and those
with something left in them. -/
theorem exists_ends_of_repairs {options : RepairOptions} {dryRun : Bool} {rules : List String}
    {places : List Route} {size : Int} {r : ProjectRepair}
    (h : (inBatches size places (fun p => e.repairFile p rules options dryRun) takeRepair
      { root, statistics := .track {} rules }).on s = (.ok r, left)) :
    ∃ ends, ends.map Prod.fst = places ∧
      InTurn (fun p => e.repairFile p rules options dryRun) ends s left ∧
      (∀ p fault, (p, .error fault) ∈ ends → ∀ duration,
        { r.report with durationMs := duration : RepairReport }.Blames p fault) ∧
      ∀ p file, (p, .ok file) ∈ ends → file.remaining ≠ [] → ∀ duration,
        { r.report with durationMs := duration : RepairReport }.Lists p := by
  obtain ⟨ends, hr, rfl, hturns⟩ := exists_inTurn takeRepair_matches h
  have hfile : ∀ x ∈ ends, ∀ file, x.2 = .ok file → file.filePath = x.1.text ∧ file.statistics.Distinct := by
    rintro ⟨p, _⟩ hx file rfl
    obtain ⟨s₁, s₂, hon⟩ := hturns.exists_on hx
    obtain ⟨r, j, j', hyields, hpath, hstatistics⟩ := exists_repairSource hon
    exact ⟨hpath, hstatistics ▸ distinct_of_repairSource hyields⟩
  have htells := ProjectRepair.tells_foldl_taken root rules fun x hx file h => (hfile x hx file h).2
  rw [← hr] at htells
  refine ⟨ends, rfl, hturns, ?_, ?_⟩
  · intro p fault hp duration
    refine RepairReport.blames_of_note ?_
    change _ ∈ if fault.isSyntaxError then r.parseErrors else r.failures
    rw [htells.parseErrors, htells.failures]
    split <;> rename_i hsyntax <;>
      exact List.mem_filterMap.mpr ⟨_, hp, by simp [note?, hsyntax]⟩
  · intro p file hp hremaining duration
    have hlisted : file ∈ r.files := by
      rw [htells.files]
      exact List.mem_filterMap.mpr ⟨_, hp, rfl⟩
    exact RepairReport.lists_of_remaining (List.mem_map_of_mem hlisted) (hfile _ hp file rfl).1 hremaining

theorem exists_repaired {options : ProjectOptions} {r : ProjectRepair}
    (h : (e.repairProject root target ids options).on s = (.ok r, left)) :
    ∃ ends, e.Repaired target ids options s left ends r := by
  unfold repairProject at h
  obtain ⟨rules, s₁, hrules, h⟩ := Work.exists_of_on_bind h
  obtain rfl : s = s₁ := congrArg Prod.snd hrules
  obtain ⟨places, s₂, hplaces, h⟩ := Work.exists_of_on_bind h
  obtain rfl : s = s₂ := congrArg Prod.snd hplaces
  obtain ⟨ends, rfl, hturns, hblames, hlists⟩ := exists_ends_of_repairs h
  exact ⟨ends, congrArg Prod.fst hplaces, ⟨rules, congrArg Prod.fst hrules, hturns⟩, hblames, hlists⟩

/-- A run of the miner over a project, told by what became of every file that it has found. -/
structure Counts (e : Engine σ) (target : Route) (ids : List String) (patterns : FilePatterns)
    (s left : Session) (ends : List (Route × Except Fault (List (String × Amount Nat)))) (m : MineReport) :
    Prop where
  found : s.files.discover target patterns = .ok (ends.map Prod.fst)
  inTurn : ∃ rules, e.validateAnalysisRules ids = .ok rules ∧
    InTurn (fun p => e.mineFile p (rules.mergeSort unitsLe)) ends s left
  blames : ∀ p fault, (p, .error fault) ∈ ends → m.Blames p fault
  lists : ∀ p counts, (p, .ok counts) ∈ ends → counts ≠ [] → m.Lists p
  /-- What is printed for people tells nothing of the failures. -/
  silent : ∀ (h : HumanStyle) failures, h.mine m = h.mine { m with failures }

theorem exists_ends_of_counts {rules : List String} {places : List Route} {size : Int} {mined : Mining}
    (h : (inBatches size places (fun p => e.mineFile p rules) Mining.take (.start rules)).on s =
      (.ok mined, left)) :
    ∃ ends, ends.map Prod.fst = places ∧ InTurn (fun p => e.mineFile p rules) ends s left ∧
      ∀ m : MineReport, m.files = mined.files.map (fun (p, counts) => ⟨p.text, numbered counts⟩) →
        m.parseErrors = mined.parseErrors → m.failures = mined.failures →
        (∀ p fault, (p, .error fault) ∈ ends → m.Blames p fault) ∧
        ∀ p counts, (p, .ok counts) ∈ ends → counts ≠ [] → m.Lists p := by
  obtain ⟨ends, hends, rfl, hturns⟩ := exists_inTurn Mining.take_matches h
  have htells := Mining.tells_foldl rules ends
  rw [← hends] at htells
  refine ⟨ends, rfl, hturns, fun m hfiles hparseErrors hfailures => ⟨?_, ?_⟩⟩
  · intro p fault hp
    refine MineReport.blames_of_note ?_
    rw [hparseErrors, hfailures, htells.parseErrors, htells.failures]
    split <;> rename_i hsyntax <;>
      exact List.mem_filterMap.mpr ⟨_, hp, by simp [faultNote?, hsyntax]⟩
  · intro p counts hp hcounts
    have hlisted : (p, counts) ∈ mined.files := by
      rw [htells.files]
      refine List.mem_filterMap.mpr ⟨_, hp, ?_⟩
      cases counts with
      | nil => exact absurd rfl hcounts
      | cons c rest => rfl
    exact MineReport.lists_of_mem (hfiles ▸ List.mem_map.mpr ⟨_, hlisted, rfl⟩) rfl

theorem exists_counts {patterns : FilePatterns} {size : Int} {m : MineReport}
    (h : (e.mineProject root target ids patterns size).on s = (.ok m, left)) :
    ∃ ends, e.Counts target ids patterns s left ends m := by
  unfold mineProject at h
  obtain ⟨rules, s₁, hrules, h⟩ := Work.exists_of_on_bind h
  obtain rfl : s = s₁ := congrArg Prod.snd hrules
  obtain ⟨places, s₂, hplaces, h⟩ := Work.exists_of_on_bind h
  obtain rfl : s = s₂ := congrArg Prod.snd hplaces
  obtain ⟨mined, s₃, hmined, h⟩ := Work.exists_of_on_bind h
  obtain ⟨hreport, rfl⟩ := Prod.mk.inj h
  obtain ⟨ends, rfl, hturns, hnames⟩ := exists_ends_of_counts hmined
  have hm := (Except.ok.inj hreport).symm
  obtain ⟨hblames, hlists⟩ := hnames m (congrArg (·.files) hm) (congrArg (·.parseErrors) hm)
    (congrArg (·.failures) hm)
  exact ⟨ends, congrArg Prod.fst hplaces, ⟨rules, congrArg Prod.fst hrules, hturns⟩, hblames, hlists,
    fun _ _ => rfl⟩

/-- A run over a project works on every file that it has found, each in its turn. The reports of a repair name every
file that could not be repaired, with the reason, and every file in which violations are left, for people in every
style and for machines. So do those of the miner, but for the failures, which it prints for machines only. -/
theorem reports_name_files (e : Engine σ) (root : String) (target : Route) (ids : List String) (s : Session) :
    (∀ options r left, (e.repairProject root target ids options).on s = (.ok r, left) →
      ∃ ends, e.Repaired target ids options s left ends r) ∧
    ∀ patterns size m left, (e.mineProject root target ids patterns size).on s = (.ok m, left) →
      ∃ ends, e.Counts target ids patterns s left ends m :=
  ⟨fun _ _ _ h => exists_repaired h, fun _ _ _ _ h => exists_counts h⟩

/-- A file that cannot be read. -/
def locked : FileTree := { files := [(⟨["a"]⟩, { content := .ofString "<A>x", readable := false })] }

theorem discover_locked (patterns : FilePatterns) : locked.discover ⟨["a"]⟩ patterns = .ok [⟨["a"]⟩] := by
  have hdirectory : locked.isDirectory ⟨["a"]⟩ = false := by decide +kernel
  have hfile : locked.isFile ⟨["a"]⟩ = true := by decide +kernel
  rw [FileTree.discover, hdirectory, hfile]
  rfl

/-- The report of a count over that file. -/
def lockedReport : MineReport :=
  { root := "/a", ruleIds := ["a"], files := [], totals := [("a", .number (.decimal 0 0))], filesScanned := 1
    parseErrors := []
    failures := [⟨"/a", "EACCES: permission denied, open '/a'"⟩] }

theorem mineProject_locked : ∃ left,
    (renamer.mineProject "/a" ⟨["a"]⟩ ["a"] .standard 1).on { files := locked } = (.ok lockedReport, left) := by
  have hrules : renamer.validateAnalysisRules ["a"] = .ok ["a"] := by rfl
  obtain ⟨left, hon⟩ := mineProject_on (Catalog.steady markRules) hrules (discover_locked .standard)
    Int.one_pos "/a" {}
  rw [List.mergeSort_singleton] at hon
  refine ⟨left, hon.trans (congrArg (fun m => (Except.ok m, left)) ?_)⟩
  decide +kernel

theorem repairProject_locked : ∃ r left,
    (renamer.repairProject "/a" ⟨["a"]⟩ ["a"] {}).on { files := locked } = (.ok r, left) ∧
    r.failures = [⟨"/a", "EACCES: permission denied, open '/a'"⟩] := by
  have hrules : renamer.validateRules ["a"] = .ok ["a"] := by rfl
  have hrun := repairProject_on {} hrules (discover_locked .standard) "/a" {}
  have hbatches : batches standardBatchSize [(⟨["a"]⟩ : Route)] = .ok [[⟨["a"]⟩]] := by
    simp [batches, pieces, standardBatchSize, batchSizeFor]
  have hfailures : ((renamer.repairProject "/a" ⟨["a"]⟩ ["a"] {}).on { files := locked }).1.toOption.map
      (·.failures) = some [⟨"/a", "EACCES: permission denied, open '/a'"⟩] := by
    rw [hrun]
    unfold inBatches
    rw [hbatches]
    decide +kernel
  cases hends : (renamer.repairProject "/a" ⟨["a"]⟩ ["a"] {}).on { files := locked } with
  | mk result left =>
    rw [hends] at hfailures
    cases result with
    | error f => cases hfailures
    | ok r => exact ⟨r, left, rfl, Option.some.inj hfailures⟩

theorem reports_name_files_locked : ∃ r left left',
    (renamer.repairProject "/a" ⟨["a"]⟩ ["a"] {}).on { files := locked } = (.ok r, left) ∧
    r.failures = [⟨"/a", "EACCES: permission denied, open '/a'"⟩] ∧
    (∃ ends, renamer.Repaired ⟨["a"]⟩ ["a"] {} { files := locked } left ends r) ∧
    (renamer.mineProject "/a" ⟨["a"]⟩ ["a"] .standard 1).on { files := locked } = (.ok lockedReport, left') ∧
    ∃ ends, renamer.Counts ⟨["a"]⟩ ["a"] .standard { files := locked } left' ends lockedReport := by
  obtain ⟨r, left, hrepair, hfailures⟩ := repairProject_locked
  obtain ⟨left', hmine⟩ := mineProject_locked
  obtain ⟨hrepaired, hcounts⟩ := reports_name_files renamer "/a" ⟨["a"]⟩ ["a"] { files := locked }
  exact ⟨r, left, left', hrepair, hfailures, hrepaired {} r left hrepair, hmine,
    hcounts .standard 1 lockedReport left' hmine⟩

/-- What the miner prints for people does not tell of that file. -/
theorem mine_leaves_out_failures : ∃ left,
    (renamer.mineProject "/a" ⟨["a"]⟩ ["a"] .standard 1).on { files := locked } = (.ok lockedReport, left) ∧
    lockedReport.failures = [⟨"/a", "EACCES: permission denied, open '/a'"⟩] ∧
    ¬ Occurs "/a" (({ colors := false } : HumanStyle).mine lockedReport) := by
  obtain ⟨left, hon⟩ := mineProject_locked
  refine ⟨left, hon, rfl, ?_⟩
  rintro ⟨before, after, htext⟩
  have hslash : '/' ∈ (({ colors := false } : HumanStyle).mine lockedReport).toList := by
    rw [htext]
    simp
  exact absurd hslash (by decide +kernel)

end Engine
end LintRepair
