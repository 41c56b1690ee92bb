import LintRepair.Proofs.Project.Independence
import LintRepair.Proofs.Repair.Results
import LintRepair.Proofs.Text.Units

/-!
# Projects file by file

The repair of a project is told by the repairs of its files, each one alone: what they come to says
which list a file is in, the lists keep the order in which the files were found, and the books hold
what the books of the repaired files hold. Batches of any size come to the same.
-/
namespace LintRepair

variable {σ : Type} {F : FileTree → FileTree → Prop}

/-- The note of a file that cannot be parsed, or of one that fails in another way. -/
def note? (unparsable : Bool) (place : Route) : Except Fault FileRepair → Option FileNote
  | .ok _ => none
  | .error fault =>
    if fault.isSyntaxError = unparsable then some ⟨place.text, fault.message⟩ else none

namespace ProjectRepair

variable {r : ProjectRepair} {root : String} {rules : List String}
  {ends : List (Route × Except Fault FileRepair)}

/-- The result with one more file, in the list where it belongs. -/
def taken (r : ProjectRepair) (place : Route) : Except Fault FileRepair → ProjectRepair
  | .ok file =>
    { r with files := r.files ++ [file], statistics := r.statistics.merge file.statistics }
  | .error fault =>
    if fault.isSyntaxError then
      { r with parseErrors := r.parseErrors ++ [⟨place.text, fault.message⟩] }
    else { r with failures := r.failures ++ [⟨place.text, fault.message⟩] }

/-- A result that tells what these repairs of files came to. -/
structure Tells (r : ProjectRepair) (root : String) (rules : List String)
    (ends : List (Route × Except Fault FileRepair)) : Prop where
  root : r.root = root
  files : r.files = ends.filterMap fun x => x.2.toOption
  parseErrors : r.parseErrors = ends.filterMap fun x => note? true x.1 x.2
  failures : r.failures = ends.filterMap fun x => note? false x.1 x.2
  statistics : r.statistics.Gathers rules (r.files.map (·.statistics))

theorem tells_start (root : String) (rules : List String) :
    ({ root, statistics := .track {} rules } : ProjectRepair).Tells root rules [] :=
  ⟨rfl, rfl, rfl, rfl, Statistics.gathers_track rules⟩

theorem taken_root (r : ProjectRepair) (place : Route) (result : Except Fault FileRepair) :
    (r.taken place result).root = r.root := by
  unfold taken
  split
  · rfl
  · split <;> rfl

theorem taken_files (r : ProjectRepair) (place : Route) (result : Except Fault FileRepair) :
    (r.taken place result).files = r.files ++ result.toOption.toList := by
  unfold taken
  split
  · rfl
  · split <;> exact (List.append_nil _).symm

theorem taken_parseErrors (r : ProjectRepair) (place : Route) (result : Except Fault FileRepair) :
    (r.taken place result).parseErrors = r.parseErrors ++ (note? true place result).toList := by
  unfold taken note?
  split
  · exact (List.append_nil _).symm
  · split
    · rfl
    · exact (List.append_nil _).symm

theorem taken_failures (r : ProjectRepair) (place : Route) (result : Except Fault FileRepair) :
    (r.taken place result).failures = r.failures ++ (note? false place result).toList := by
  unfold taken note?
  split
  · exact (List.append_nil _).symm
  · next fault =>
    cases fault.isSyntaxError
    · rfl
    · exact (List.append_nil _).symm

theorem Tells.taken (h : r.Tells root rules ends) {place : Route} {result : Except Fault FileRepair}
    (hresult : ∀ file, result = .ok file → file.statistics.Distinct) :
    (r.taken place result).Tells root rules (ends ++ [(place, result)]) where
  root := by rw [taken_root, h.root]
  files := by
    rw [taken_files, h.files, List.filterMap_append]
    rfl
  parseErrors := by
    rw [taken_parseErrors, h.parseErrors, List.filterMap_append]
    rfl
  failures := by
    rw [taken_failures, h.failures, List.filterMap_append]
    rfl
  statistics := by
    cases result with
    | error fault =>
      unfold ProjectRepair.taken
      dsimp only
      split <;> exact h.statistics
    | ok file =>
      rw [ProjectRepair.taken, List.map_append, List.map_singleton]
      exact h.statistics.merge (hresult file rfl)

theorem tells_foldl_taken (root : String) (rules : List String)
    (hends : ∀ x ∈ ends, ∀ file, x.2 = .ok file → file.statistics.Distinct) :
    (ends.foldl (fun r x => taken r x.1 x.2)
      { root, statistics := .track {} rules }).Tells root rules ends := by
  induction ends using List.reverseRecOn with
  | nil => exact tells_start root rules
  | append_singleton rest x ih =>
    rw [List.forall_mem_append, List.forall_mem_singleton] at hends
    rw [List.foldl_concat]
    exact (ih hends.1).taken hends.2

/-- The files of a result, by their paths: the repaired ones, those that cannot be parsed and those
that failed. -/
def paths (r : ProjectRepair) : List String :=
  r.files.map (·.filePath) ++ r.parseErrors.map (·.file) ++ r.failures.map (·.file)

theorem Tells.perm_paths (h : r.Tells root rules ends)
    (hends : ∀ x ∈ ends, ∀ file, x.2 = .ok file → file.filePath = x.1.text) :
    r.paths.Perm (ends.map (·.1.text)) := by
  unfold paths
  rw [h.files, h.parseErrors, h.failures]
  clear h
  induction ends with
  | nil => exact .refl []
  | cons x rest ih =>
    obtain ⟨hx, hrest⟩ := List.forall_mem_cons.mp hends
    obtain ⟨place, result⟩ := x
    cases result with
    | ok file =>
      simp only [List.filterMap_cons, Except.toOption, note?, List.map_cons, List.cons_append,
        hx file rfl]
      exact (ih hrest).cons _
    | error fault =>
      have hnotes : note? true place (.error fault) = some ⟨place.text, fault.message⟩ ∧
            note? false place (.error fault) = none ∨
          note? true place (.error fault) = none ∧
            note? false place (.error fault) = some ⟨place.text, fault.message⟩ := by
        by_cases hsyntax : fault.isSyntaxError = true
        · exact .inl (by simp [note?, hsyntax])
        · exact .inr (by simp [note?, hsyntax])
      rcases hnotes with ⟨htrue, hfalse⟩ | ⟨htrue, hfalse⟩
      · simp only [List.filterMap_cons, htrue, hfalse, Except.toOption, List.map_cons]
        rw [List.append_assoc, List.cons_append]
        refine List.perm_middle.trans (.cons _ ?_)
        rw [← List.append_assoc]
        exact ih hrest
      · simp only [List.filterMap_cons, htrue, hfalse, Except.toOption, List.map_cons]
        exact List.perm_middle.trans ((ih hrest).cons _)

end ProjectRepair

namespace Engine

variable {e : Engine σ}

theorem takeRepair_matches (r : ProjectRepair) (place : Route) (result : Except Fault FileRepair) :
    Matches (Session.Alike F) Eq (takeRepair r place result) (pure (r.taken place result)) := by
  cases result with
  | ok file => exact matches_pure rfl
  | error fault =>
    unfold takeRepair ProjectRepair.taken
    dsimp only
    split <;> exact fun _ _ hst => ⟨.ok rfl, hst⟩

/-- What the repair of one file alone comes to. -/
def alone (e : Engine σ) (files : FileTree) (ids : List String) (options : ProjectOptions)
    (place : Route) : Except Fault FileRepair :=
  ((e.repairFile place ids options.repair options.dryRun).start files).1

theorem alone_spec {tree : FileTree} {ids : List String} {options : ProjectOptions} {place : Route}
    {file : FileRepair} (h : e.alone tree ids options place = .ok file) :
    file.filePath = place.text ∧ file.statistics.Distinct := by
  obtain ⟨s, hon⟩ : ∃ s, (e.repairFile place ids options.repair options.dryRun).on
      { files := tree } = (.ok file, s) := ⟨_, Prod.ext h rfl⟩
  obtain ⟨r, j, j', hyields, hpath, hstatistics⟩ := exists_repairSource hon
  exact ⟨hpath, hstatistics ▸ distinct_of_repairSource hyields⟩

theorem repairFile_alike (he : e.analyzer.Steady) {options : RepairOptions}
    (habort : options.abortAfter = none) (ids : List String) (dryRun : Bool) (place : Route) :
    Matches (Session.Alike Eq) Eq (e.repairFile place ids options dryRun)
      (e.repairFile place ids options dryRun) := by
  refine repairFile_matches he habort ?_ ?_ ids dryRun
  · rintro t _ rfl
    rfl
  · rintro t _ content rfl
    exact sameOutcome_refl _

/-- A repair of a project that is told by the repairs of its files, each one alone. -/
structure FileWise (e : Engine σ) (tree : FileTree) (ids rules : List String)
    (options : ProjectOptions) (places : List Route) (r : ProjectRepair) : Prop where
  files : r.files = places.filterMap fun p => (e.alone tree ids options p).toOption
  parseErrors : r.parseErrors = places.filterMap fun p => note? true p (e.alone tree ids options p)
  failures : r.failures = places.filterMap fun p => note? false p (e.alone tree ids options p)
  paths : r.paths.Perm (places.map Route.text)
  statistics : r.statistics.Gathers rules (r.files.map (·.statistics))

/-- What the repairs of some files, each one alone, come to when they are taken in one by one. -/
def gathered (e : Engine σ) (tree : FileTree) (ids rules : List String) (options : ProjectOptions)
    (places : List Route) (root : String) : ProjectRepair :=
  (places.map fun p => (p, e.alone tree ids options p)).foldl (fun r x => r.taken x.1 x.2)
    { root, statistics := .track {} rules }

theorem gathered_fileWise (e : Engine σ) (tree : FileTree) (ids rules : List String)
    (options : ProjectOptions) (places : List Route) (root : String) :
    (e.gathered tree ids rules options places root).root = root ∧
      e.FileWise tree ids rules options places (e.gathered tree ids rules options places root) := by
  have hends : ∀ x ∈ places.map fun p => (p, e.alone tree ids options p),
      ∀ file, x.2 = .ok file → file.filePath = x.1.text ∧ file.statistics.Distinct := by
    intro x hx file hfile
    obtain ⟨p, -, rfl⟩ := List.mem_map.mp hx
    exact alone_spec hfile
  have htells : (e.gathered tree ids rules options places root).Tells root rules _ :=
    ProjectRepair.tells_foldl_taken root rules fun x hx file hfile => (hends x hx file hfile).2
  have hpaths := htells.perm_paths fun x hx file hfile => (hends x hx file hfile).1
  rw [List.map_map] at hpaths
  refine ⟨htells.root, ?_, ?_, ?_, hpaths, htells.statistics⟩
  · rw [htells.files, List.filterMap_map]
    rfl
  · rw [htells.parseErrors, List.filterMap_map]
    rfl
  · rw [htells.failures, List.filterMap_map]
    rfl

theorem repairFile_validated {ids rules : List String} (hrules : e.validateRules ids = .ok rules)
    (place : Route) (options : RepairOptions) (dryRun : Bool) :
    e.repairFile place rules options dryRun = e.repairFile place ids options dryRun := by
  have hsource (text : Text) (file : String) :
      e.repairSource text file rules options = e.repairSource text file ids options := by
    unfold repairSource
    rw [hrules, validateRules_again hrules]
  unfold repairFile
  simp only [hsource]

theorem repairProject_on {tree : FileTree} {target : Route} {ids rules : List String}
    {places : List Route} (options : ProjectOptions) (hrules : e.validateRules ids = .ok rules)
    (hplaces : tree.discover target options.patterns = .ok places) (root : String) (j : Journal) :
    (e.repairProject root target ids options).on ⟨tree, j⟩ =
      (inBatches options.batchSize places
        (fun place => e.repairFile place rules options.repair options.dryRun) takeRepair
        { root, statistics := .track {} rules }).on ⟨tree, j⟩ := by
  have hrules' : (Work.lift (e.validateRules ids)).on ⟨tree, j⟩ = (.ok rules, ⟨tree, j⟩) := by
    rw [hrules]
    rfl
  have hplaces' : (Work.ask (·.discover target options.patterns)).on ⟨tree, j⟩ =
      (.ok places, ⟨tree, j⟩) := by
    rw [← hplaces]
    rfl
  unfold repairProject
  rw [Work.on_bind_of_ok hrules', Work.on_bind_of_ok hplaces']

/-- The repair of a project that lists no file twice is that of its files, and the size of the batches
makes no difference to it. File trees are without links: two paths are two files, and a listing of paths
that differ names no file twice. Where one path is a link to another this says nothing. -/
theorem repairProject_fileWise (he : e.analyzer.Steady) {tree : FileTree} {target : Route}
    {ids rules : List String} {places : List Route} {options : ProjectOptions}
    (habort : options.repair.abortAfter = none) (hrules : e.validateRules ids = .ok rules)
    (hplaces : tree.discover target options.patterns = .ok places) (honce : places.Nodup)
    (root : String) :
    ∃ r left, r.root = root ∧ e.FileWise tree ids rules options places r ∧
      ∀ size : Int, 1 ≤ size → ∀ j, ∃ j',
        (e.repairProject root target ids { options with batchSize := size }).on ⟨tree, j⟩ =
          (.ok r, ⟨left, j'⟩) := by
  obtain ⟨⟨left, k⟩, hsettled⟩ := (apart_repairFile he habort rules options.dryRun).settleAll_eq honce
    tree { files := tree } fun p _ => FileTree.sameAt_refl p tree
  have halone (p : Route) :
      ((e.repairFile p rules options.repair options.dryRun).start tree).1 =
        e.alone tree ids options p := by
    rw [alone, repairFile_validated hrules]
  simp only [halone] at hsettled
  obtain ⟨hroot, hwise⟩ := gathered_fileWise e tree ids rules options places root
  refine ⟨_, left, hroot, hwise, fun size hsize j => ?_⟩
  obtain ⟨⟨_, j'⟩, hon, rfl⟩ := (inBatches_matches (repairFile_alike he habort rules options.dryRun)
    takeRepair_matches hsize places ({ root, statistics := .track {} rules } : ProjectRepair)).exists_on
    (s := ⟨tree, j⟩) (t := { files := tree }) rfl (Work.on_bind_of_ok hsettled)
  exact ⟨j', (repairProject_on { options with batchSize := size } hrules hplaces root j).trans hon⟩

section Shelves

theorem plainPatterns_of_plain {patterns : List String} (hplain : ∀ p ∈ patterns,
      Braces.hasBraces p = false ∧ p ≠ "" ∧ Pattern.withoutEmptyParts p = p) :
    Glob.plainPatterns patterns = .ok patterns := by
  have hexpanded : patterns.mapM Braces.expand = .ok (patterns.map fun p => [p]) := by
    induction patterns with
    | nil => rfl
    | cons p rest ih =>
      obtain ⟨hp, hrest⟩ := List.forall_mem_cons.mp hplain
      rw [List.mapM_cons, Braces.expand_of_not_hasBraces hp.1 hp.2.1, ih hrest]
      rfl
  have hwhole : (patterns.map fun p => [p]).flatten = patterns := by
    rw [← List.flatMap_def, List.flatMap_singleton']
  unfold Glob.plainPatterns
  rw [hexpanded]
  simp only [bind, Except.bind, pure, Except.pure, hwhole]
  rw [List.map_congr_left fun p hp => (hplain p hp).2.2, List.map_id']

/-- What is discovered by patterns for which files have to be looked for, when no file is to be left
out. -/
theorem discover_of_dynamic {patterns : List String} (hplain : ∀ p ∈ patterns,
      Braces.hasBraces p = false ∧ p ≠ "" ∧ Pattern.withoutEmptyParts p = p)
    (hdynamic : ∀ p ∈ patterns, Pattern.isDynamic p = true)
    (hpositive : ∀ p ∈ patterns, Glob.isNegative p = false) {tree : FileTree} {target : Route}
    (htarget : tree.isDirectory target = true) {found : List (List String)}
    (hfound : (Glob.tasks patterns).mapM (Glob.Search.found ⟨tree, target, []⟩) = .ok found) :
    tree.discover target ⟨patterns, []⟩ =
      .ok (Route.sorted ((Glob.distinct found.flatten).map target.resolve)) := by
  have hnone : patterns.contains "" = false := by
    rw [Bool.eq_false_iff, ne_eq, List.contains_iff_mem]
    exact fun hmem => (hplain "" hmem).2.1 rfl
  have hnegative : patterns.filter Glob.isNegative = [] :=
    List.filter_eq_nil_iff.mpr fun p hp => by rw [hpositive p hp]; exact Bool.false_ne_true
  have hwanted : (patterns.filter fun p => !Glob.isNegative p) = patterns :=
    List.filter_eq_self.mpr fun p hp => by rw [hpositive p hp]; rfl
  have hstatic : (patterns.filter fun p => !Pattern.isDynamic p) = [] :=
    List.filter_eq_nil_iff.mpr fun p hp => by rw [hdynamic p hp]; exact Bool.false_ne_true
  have hsearched : patterns.filter Pattern.isDynamic = patterns := List.filter_eq_self.mpr hdynamic
  have hfiles : Glob.files tree target patterns [] = .ok (Glob.distinct found.flatten) := by
    unfold Glob.files
    rw [plainPatterns_of_plain hplain, show Glob.plainPatterns [] = .ok [] from rfl, hnone]
    simp only [bind, Except.bind, hnegative, hwanted, hstatic, hsearched, List.append_nil,
      List.map_nil, Bool.false_eq_true, if_false, hfound]
    rfl
  unfold FileTree.discover FileTree.placesOf
  rw [if_pos htarget, hfiles]
  rfl

/-- A file in order, one that cannot be parsed, and one that cannot be written. -/
def shelf : FileTree where
  files := [(⟨["a"]⟩, { content := .ofString "<A>x" }), (⟨["b"]⟩, { content := .ofString ">" }),
    (⟨["c"]⟩, { content := .ofString "<A>x", writable := false })]

def everything : ProjectOptions := { patterns := ⟨["*"], []⟩ }

theorem resolve_here : Route.resolve ⟨[]⟩ "." = ⟨[]⟩ := by
  rw [Route.resolve, Path.components_eq]
  decide +kernel

theorem discover_shelf :
    shelf.discover ⟨[]⟩ everything.patterns = .ok [⟨["a"]⟩, ⟨["b"]⟩, ⟨["c"]⟩] := by
  have htasks : Glob.tasks ["*"] = [⟨".", ["*"]⟩] := by
    have hinside : ("*".startsWith ".." || "*".startsWith "./..") = false := by decide +kernel
    have hbase : Pattern.base "*" = "." := by decide +kernel
    simp only [Glob.tasks, List.filter_cons, List.filter_nil, hinside, hbase, Bool.not_false,
      if_true, List.map_cons, List.map_nil]
    rfl
  have hfound : Glob.Search.found ⟨shelf, ⟨[]⟩, []⟩ ⟨".", ["*"]⟩ = .ok ["a", "b", "c"] := by
    unfold Glob.Search.found
    dsimp only
    rw [resolve_here, if_neg (by decide +kernel)]
    refine congrArg Except.ok ?_
    decide +kernel
  have hdistinct : Glob.distinct ["a", "b", "c"] = ["a", "b", "c"] := by decide +kernel
  have hresolved : ["a", "b", "c"].map (Route.resolve ⟨[]⟩) = [⟨["a"]⟩, ⟨["b"]⟩, ⟨["c"]⟩] := by
    simp only [List.map_cons, List.map_nil, Route.resolve, Path.components_eq]
    decide +kernel
  have hsorted : Route.sorted [⟨["a"]⟩, ⟨["b"]⟩, ⟨["c"]⟩] = [⟨["a"]⟩, ⟨["b"]⟩, ⟨["c"]⟩] :=
    List.mergeSort_of_pairwise (by decide +kernel)
  have hsearch : (Glob.tasks ["*"]).mapM (Glob.Search.found ⟨shelf, ⟨[]⟩, []⟩) =
      .ok [["a", "b", "c"]] := by
    rw [htasks, List.mapM_cons, hfound]
    rfl
  unfold everything
  rw [discover_of_dynamic (by decide +kernel) (by decide +kernel) (by decide +kernel)
    (by decide +kernel) hsearch]
  change Except.ok (Route.sorted ((Glob.distinct ["a", "b", "c"]).map (Route.resolve ⟨[]⟩))) = _
  rw [hdistinct, hresolved, hsorted]

/-- One file is repaired, one is noted as unparsable and one as a failure. -/
theorem repairProject_fileWise_shelf : ∃ r left,
    r.files.map (fun f => (f.filePath, f.textAfter, f.written)) =
      [("/a", .ofString "<C>x", true)] ∧
    (r.parseErrors.map (·.file), r.failures.map (·.file)) = (["/b"], ["/c"]) ∧
    renamer.FileWise shelf ["a", "b"] ["a", "b"] everything [⟨["a"]⟩, ⟨["b"]⟩, ⟨["c"]⟩] r ∧
    ∀ size : Int, 1 ≤ size → ∀ j, ∃ j',
      (renamer.repairProject "/" ⟨[]⟩ ["a", "b"] { everything with batchSize := size }).on
        ⟨shelf, j⟩ = (.ok r, ⟨left, j'⟩) := by
  have hrules : renamer.validateRules ["a", "b"] = .ok ["a", "b"] := by rfl
  have habort : everything.repair.abortAfter = none := rfl
  obtain ⟨r, left, -, hwise, hruns⟩ := repairProject_fileWise (Catalog.steady markRules) habort hrules
    discover_shelf (by decide) "/"
  refine ⟨r, left, ?_, ?_, hwise, hruns⟩
  · rw [hwise.files]
    decide +kernel
  · rw [hwise.parseErrors, hwise.failures]
    decide +kernel

/-- A file to which both patterns lead, the second one by way of the directory above. -/
def lone : FileTree := { files := [(⟨["a"]⟩, { content := .ofString "<A>x" })] }

def overlapping : ProjectOptions := { patterns := ⟨["*", "../*"], []⟩, batchSize := 1 }

theorem spelling_above :
    Pattern.spelling false "../*" = ("\\.\\.\\/(?!\\.)(?=.)[^/]*?\\/?", false) := by
  have hcommon : Pattern.common? false ("../*".length + 1)
      (Pattern.withoutDot (Pattern.shortened "../*")) = none := by decide +kernel
  have hname : Pattern.withoutDot (Pattern.shortened "../*") = "../*" := by decide +kernel
  have hpath : Pattern.isSimple "../*" = false := by
    have hslash : "/()[]\x7b\x7d\"".contains '/' = true := by
      rw [String.contains_char_eq]
      decide +kernel
    have hany : "../*".toList.any (fun c => "/()[]\x7b\x7d\"".contains c) = true :=
      List.any_eq_true.mpr ⟨'/', by decide, hslash⟩
    rw [Pattern.isSimple, hany, Bool.not_true, Bool.and_false]
  rw [Pattern.spelling, hcommon, hname, ite_self]
  dsimp only
  rw [hpath, if_neg Bool.false_ne_true]
  decide +kernel

theorem discover_lone :
    lone.discover ⟨[]⟩ overlapping.patterns = .ok [⟨["a"]⟩, ⟨["a"]⟩] := by
  have htasks : Glob.tasks ["*", "../*"] = [⟨"..", ["../*"]⟩, ⟨".", ["*"]⟩] := by
    have hinside : ("*".startsWith ".." || "*".startsWith "./..") = false := by decide +kernel
    have houtside : ("../*".startsWith ".." || "../*".startsWith "./..") = true := by decide +kernel
    have hbase : Pattern.base "*" = "." := by decide +kernel
    have hbase' : Pattern.base "../*" = ".." := by decide +kernel
    simp only [Glob.tasks, List.filter_cons, List.filter_nil, hinside, houtside, hbase, hbase',
      Bool.not_false, Bool.not_true, Bool.false_eq_true, if_true, if_false, List.map_cons, List.map_nil]
    rfl
  have hfound : Glob.Search.found ⟨lone, ⟨[]⟩, []⟩ ⟨".", ["*"]⟩ = .ok ["a"] := by
    unfold Glob.Search.found
    dsimp only
    rw [resolve_here, if_neg (by decide +kernel)]
    refine congrArg Except.ok ?_
    decide +kernel
  have hfound' : Glob.Search.found ⟨lone, ⟨[]⟩, []⟩ ⟨"..", ["../*"]⟩ = .ok ["../a"] := by
    have habove : Path.components ".." = [".."] := by
      rw [Path.components_eq]
      decide +kernel
    have hstart : Route.resolve ⟨[]⟩ ".." = ⟨[]⟩ := by
      rw [Route.resolve, habove]
      decide +kernel
    have hbelow : lone.filesBelow ⟨[]⟩ = [["a"]] := by decide +kernel
    have haccepts : Glob.Search.accepts ⟨lone, ⟨[]⟩, []⟩ (.ofPatterns ["../*"] []) "../a" = true := by
      have hfits : Pattern.fits (Pattern.expression? false "../*") "../a" = true := by
        rw [Pattern.expression?, spelling_above]
        decide +kernel
      have hdot : Pattern.withoutDot "../a" = "../a" := by decide +kernel
      simp only [Glob.Search.accepts, hdot, Glob.Filter.accepts, Glob.Filter.ofPatterns,
        List.map_cons, List.map_nil, List.any_cons, hfits, Bool.true_or, List.filter_nil,
        List.any_nil, Bool.not_false, Bool.and_self]
    unfold Glob.Search.found
    dsimp only
    rw [hstart, habove, if_neg (by decide +kernel), hbelow]
    change Except.ok (["../a"].filter _) = _
    rw [List.filter_cons_of_pos haccepts]
    rfl
  have hdistinct : Glob.distinct ["../a", "a"] = ["../a", "a"] := by decide +kernel
  have hresolved : ["../a", "a"].map (Route.resolve ⟨[]⟩) = [⟨["a"]⟩, ⟨["a"]⟩] := by
    simp only [List.map_cons, List.map_nil, Route.resolve, Path.components_eq]
    decide +kernel
  have hsorted : Route.sorted [⟨["a"]⟩, ⟨["a"]⟩] = [⟨["a"]⟩, ⟨["a"]⟩] :=
    List.mergeSort_of_pairwise (by decide +kernel)
  have hsearch : (Glob.tasks ["*", "../*"]).mapM (Glob.Search.found ⟨lone, ⟨[]⟩, []⟩) =
      .ok [["../a"], ["a"]] := by
    rw [htasks, List.mapM_cons, hfound', List.mapM_cons, hfound]
    rfl
  unfold overlapping
  rw [discover_of_dynamic (by decide +kernel) (by decide +kernel) (by decide +kernel)
    (by decide +kernel) hsearch]
  change Except.ok (Route.sorted ((Glob.distinct ["../a", "a"]).map (Route.resolve ⟨[]⟩))) = _
  rw [hdistinct, hresolved, hsorted]

/-- A file that is listed twice is repaired when its first turn comes, and has nothing to repair when
the second one does. -/
theorem repairProject_overlapping : ∃ r s,
    lone.discover ⟨[]⟩ overlapping.patterns = .ok [⟨["a"]⟩, ⟨["a"]⟩] ∧
    (renamer.repairProject "/" ⟨[]⟩ ["a", "b"] overlapping).on { files := lone } = (.ok r, s) ∧
    r.files.map (·.written) = [true, false] ∧
    (renamer.alone lone ["a", "b"] overlapping ⟨["a"]⟩).toOption.map (·.written) = some true := by
  have hrules : renamer.validateRules ["a", "b"] = .ok ["a", "b"] := by rfl
  have hrun := repairProject_on overlapping hrules discover_lone "/" {}
  have hbatches : batches 1 [(⟨["a"]⟩ : Route), ⟨["a"]⟩] = .ok [[⟨["a"]⟩], [⟨["a"]⟩]] := by
    simp [batches, pieces]
  have hwritten : ((renamer.repairProject "/" ⟨[]⟩ ["a", "b"] overlapping).on
      { files := lone }).1.toOption.map (·.files.map (·.written)) = some [true, false] := by
    rw [hrun]
    unfold inBatches
    rw [show overlapping.batchSize = 1 from rfl, hbatches]
    decide +kernel
  cases hends : (renamer.repairProject "/" ⟨[]⟩ ["a", "b"] overlapping).on { files := lone } with
  | mk result s =>
    rw [hends] at hwritten
    cases result with
    | error f => cases hwritten
    | ok r =>
      refine ⟨r, s, discover_lone, rfl, Option.some.inj hwritten, ?_⟩
      decide +kernel

end Shelves

end Engine
end LintRepair
