import LintRepair.Command.Arguments
import LintRepair.Command.Offered
import LintRepair.Config.Load
import LintRepair.Logger
import LintRepair.Project.Mine
import LintRepair.Report.Human
import LintRepair.Report.Json
import LintRepair.Report.Run
import LintRepair.Rules.Engine

/-!
# Running commands

What a command line does to the files it is run on and what it prints. A run fails when it is refused, when it
meets a fault or when it could not repair some file.
-/
namespace LintRepair

/-- Where and how a command is run. -/
structure Console where
  directory : Route
  colors : Bool := false
  /-- The moment at which the run starts, as reports show it. -/
  startedAt : String := ""
  /-- The processors of the machine. -/
  processors : Nat := 32
  /-- How often a run looks at the clock within so many milliseconds, if it lasts longer. -/
  looksWithin : Nat → Option Nat := fun _ => none
deriving Inhabited

structure Response where
  exitCode : Nat
  printed : List Printed
  files : FileTree
deriving Inhabited

/-- What a command has to say once it is done. -/
structure Closing where
  lines : List String
  failed : Bool := false
  /-- What went wrong after the lines were printed. -/
  fault : Option Fault := none
deriving Inhabited

namespace Console

variable (c : Console)

def style (w : Words) : HumanStyle := ⟨c.colors && !w.has "json", w.has "verbose", w.has "dry-run"⟩

/-- The rules named on the command line. -/
def namedRules (w : Words) : Option (List String) := (w.value? "rules").map parseRuleList

def wholeNumber (w : Words) (option : String) : Option Number := (w.whole? option).map Number.ofInt

def overrides (w : Words) : Overrides where
  rules := namedRules w
  mode := w.value? "mode"
  maxRepairsPerRule := wholeNumber w "max-repairs-per-rule"
  maxPasses := wholeNumber w "max-passes"
  timeoutMs := wholeNumber w "timeout"
  concurrency := wholeNumber w "concurrency"
  statsOutputFile := w.value? "stats-output"

/-- Writes the report of a run where the settings want it; the lines that say so come with it. -/
def writeReport (w : Words) (settings : RepairSettings) (report : RepairReport) : Work (List String) := do
  match settings.statsOutputFile.filter (· ≠ "") with
  | none => return []
  | some path =>
    let run : RunReport := ⟨report, settings, c.startedAt, w.has "dry-run"⟩
    Work.write (c.directory.resolve path) (Text.ofString (run.toValue.json ++ "\n")) path
    return if w.has "json" then [] else [Style.dim.paintIf c.colors ("Statistics written to " ++ path)]

/-- The settings of a repair, as the engine takes them. -/
def repairOptions (settings : RepairSettings) : RepairOptions where
  mode := settings.mode
  budget := settings.budget
  abortAfter := settings.timeoutMs.bind c.looksWithin

def repair (target : String) (w : Words) : Work Closing := do
  let config ← Config.load c.directory (w.value? "config")
  let settings ← Work.lift (RepairSettings.resolve config (overrides w))
  let result ← (Rules.engine settings.indentSize).repairProject target (c.directory.resolve target) settings.rules
    { repair := c.repairOptions settings
      dryRun := w.has "dry-run"
      patterns := settings.files
      batchSize := (settings.concurrency.map Int.ofNat).getD (batchSizeFor c.processors) }
  let report := result.report
  let shown := if w.has "json" then report.json (w.has "dry-run") else (c.style w).repair report
  match ← (c.writeReport w settings report).settle with
  | .ok more => return ⟨shown :: more, !report.parseErrors.isEmpty || !report.failures.isEmpty, none⟩
  | .error f => return ⟨[shown], true, some f⟩

def mine (target : String) (w : Words) : Work Closing := do
  let config ← Config.load c.directory (w.value? "config")
  let engine := Rules.engine ({} : Config).render.indentSize
  let size := (w.whole? "concurrency").or (config.concurrency.map Int.ofNat)
  let report ← engine.mineProject target (c.directory.resolve target)
    ((namedRules w).getD Rules.sharedChecks.ids) config.files (size.getD (batchSizeFor c.processors))
  return ⟨[if w.has "json" then report.json else (c.style w).mine report], false, none⟩

def rules (w : Words) : Closing :=
  let listed := describeRules Rules.sharedChecks Rules.sharedProcessors
  ⟨[if w.has "json" then RuleDescription.listJson listed else (c.style w).rules listed], false, none⟩

/-- What a fault prints. -/
def complaint (threshold : LogLevel) (f : Fault) : List Printed :=
  LogEntry.printed threshold c.colors ⟨.error, "", f.message, none⟩

/-- Does the work of a command and prints what it noted on the way before its closing words. -/
def conclude (threshold : LogLevel) (work : Work Closing) (files : FileTree) : Response :=
  let (result, session) := work.start files
  let noted := session.journal.entries.flatMap (LogEntry.printed threshold c.colors)
  match result with
  | .error f => ⟨1, noted ++ c.complaint threshold f, session.files⟩
  | .ok closing =>
    ⟨if closing.failed then 1 else 0,
      noted ++ closing.lines.map (fun line => ⟨.output, line ++ "\n"⟩)
        ++ (closing.fault.map (c.complaint threshold)).getD [],
      session.files⟩

/-- Runs a command on files. -/
def perform (command : Command) (w : Words) (files : FileTree) : Response :=
  let target := w.operands.head?.getD ""
  let work (of : String → Words → Work Closing) : Response :=
    match OutputOptions.threshold ⟨w.has "json", w.has "verbose", w.has "quiet"⟩ .info with
    | .error f => ⟨1, c.complaint .info f, files⟩
    | .ok threshold => c.conclude threshold (of target w) files
  match command.kind with
  | .repair => work c.repair
  | .mine => work c.mine
  | .listRules => c.conclude .info (return c.rules w) files

/-- Answers a command line. -/
def answer (words : List String) (files : FileTree) : Response :=
  match Program.offered.request words with
  | .version text => ⟨0, [⟨.output, text ++ "\n"⟩], files⟩
  | .help page wanted => ⟨if wanted then 0 else 1, [⟨if wanted then .output else .problems, page.text⟩], files⟩
  | .refused reason => ⟨1, [⟨.problems, reason.message ++ "\n"⟩], files⟩
  | .run command w => c.perform command w files

end Console
end LintRepair
