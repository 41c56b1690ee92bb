import LintRepair.Config.Settings
import LintRepair.Report.Basic

/-!
# The report of a run

What was asked for and what came of it, as it is written to a file.
-/
namespace LintRepair

structure RunReport where
  repair : RepairReport
  settings : RepairSettings
  startedAt : String
  dryRun : Bool
deriving Repr, Inhabited

namespace RunReport

def capValue : Cap → Value
  | .atMost n => .nat n
  | .unbounded => .null

def toValue (r : RunReport) (order : FieldOrder := .asRecorded) : Value :=
  .record
    [("root", .text r.repair.root), ("startedAt", .text r.startedAt),
      ("durationMs", .number r.repair.durationMs), ("ruleIds", .texts r.settings.rules),
      ("options", .record
        [("mode", .text r.settings.mode.label),
          ("maxRepairsPerRule", capValue r.settings.budget.repairsPerRule),
          ("maxPasses", capValue r.settings.budget.passes), ("dryRun", .bool r.dryRun)]),
      ("filesProcessed", .nat r.repair.files.length), ("filesChanged", .nat r.repair.filesChanged),
      ("parseErrors", .list (r.repair.parseErrors.map FileNote.toValue)),
      ("statistics", r.repair.statistics.toValue order)]

end RunReport
end LintRepair
