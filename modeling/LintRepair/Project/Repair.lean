import LintRepair.Project.Batches
import LintRepair.Project.Discovery
import LintRepair.Repair.Engine
import LintRepair.Report.Basic

/-!
# Repairing projects

Files share nothing but the engine. Every discovered file ends up among the repaired files, among those that
cannot be parsed or among the failures.
-/
namespace LintRepair

/-- A repair of one file. -/
structure FileRepair where
  filePath : String
  textBefore : Text
  textAfter : Text
  changed : Bool
  /-- The repaired text was written back. -/
  written : Bool
  stopReason : StopReason
  passes : List PassSummary
  statistics : Statistics
  remaining : List Violation
deriving Inhabited

/-- A repair of all files of a target. -/
structure ProjectRepair where
  root : String
  files : List FileRepair := []
  parseErrors : List FileNote := []
  failures : List FileNote := []
  statistics : Statistics := {}
deriving Inhabited

namespace ProjectRepair

def filesChanged (r : ProjectRepair) : Nat := (r.files.filter (·.changed)).length

end ProjectRepair

/-- What a project repair is asked for. -/
structure ProjectOptions where
  repair : RepairOptions := {}
  /-- Compute the repairs without writing files. -/
  dryRun : Bool := false
  patterns : FilePatterns := .standard
  batchSize : Int := standardBatchSize
deriving Inhabited

def runnerSays (level : LogLevel) (message : String) : LogEntry := ⟨level, "runner", message, none⟩

namespace Engine

variable {σ τ : Type}

/-- Repairs one file, which is read once and written at most once. -/
def repairFile [Throwable τ] (e : Engine σ τ) (place : Route) (ruleIds : List String) (options : RepairOptions) (dryRun : Bool) :
    Work FileRepair := do
  let textBefore ← Work.read place
  let result ← Work.ofRun do
    let result ← e.repairSource textBefore place.text ruleIds options
    Run.release result.document.number
    return result
  let written := result.changed && !dryRun
  if written then Work.write place result.text
  return { filePath := place.text
           textBefore
           textAfter := result.text
           changed := result.changed
           written
           stopReason := result.stopReason
           passes := result.passes
           statistics := result.statistics
           remaining := result.remaining }

/-- Puts the result for a file into the list where it belongs. -/
def takeRepair (r : ProjectRepair) (place : Route) : Except Fault FileRepair → Work ProjectRepair
  | .ok file => return { r with files := r.files ++ [file], statistics := r.statistics.merge file.statistics }
  | .error fault => do
    let note : FileNote := ⟨place.text, fault.message⟩
    if fault.isSyntaxError then
      Work.log (runnerSays .warn ("Skipping " ++ note.file ++ ": " ++ note.message))
      return { r with parseErrors := r.parseErrors ++ [note] }
    else
      Work.log (runnerSays .error ("Failed to repair " ++ note.file ++ ": " ++ note.message))
      return { r with failures := r.failures ++ [note] }

/-- Repairs every file of a target. The rules are checked before any file is read; `root` is what the result calls
the target. -/
def repairProject [Throwable τ] (e : Engine σ τ) (root : String) (target : Route) (ruleIds : List String)
    (options : ProjectOptions) : Work ProjectRepair := do
  let rules ← Work.lift (e.validateRules ruleIds)
  let places ← Work.ask (·.discover target options.patterns)
  inBatches options.batchSize places (fun place => e.repairFile place rules options.repair options.dryRun)
    takeRepair { root, statistics := Statistics.track {} rules }

end Engine

namespace FileRepair

def report (f : FileRepair) : FileReport :=
  { filePath := f.filePath, changed := f.changed, written := f.written, stopReason := f.stopReason.label
    passes := f.passes.length, repairsApplied := f.statistics.totals.applied, remaining := f.remaining }

end FileRepair

/-- The result as it is reported. Its duration is not measured here. -/
def ProjectRepair.report (r : ProjectRepair) : RepairReport :=
  { root := r.root, files := r.files.map (·.report), parseErrors := r.parseErrors, failures := r.failures
    statistics := r.statistics, filesChanged := r.filesChanged, durationMs := .ofNat 0 }

end LintRepair
