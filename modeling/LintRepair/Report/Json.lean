import LintRepair.Report.Basic

/-!
# Reports for machines
-/
namespace LintRepair

namespace FileReport

def toValue (f : FileReport) : Value :=
  .record [("file", .text f.filePath), ("changed", .bool f.changed), ("written", .bool f.written),
    ("stop_reason", .text f.stopReason), ("passes", .nat f.passes),
    ("repairs_applied", .nat f.repairsApplied),
    ("remaining", .list (f.remaining.map fun v =>
      .record [("rule", .text v.ruleId), ("line", .nat v.location.line),
        ("column", .nat v.location.column), ("message", .text v.message)]))]

end FileReport

namespace RepairReport

def json (r : RepairReport) (dryRun : Bool) (order : FieldOrder := .asRecorded) : String :=
  Value.json (.record
    [("root", .text r.root), ("dry_run", .bool dryRun), ("files", .list (r.files.map (·.toValue))),
      ("parse_errors", .list (r.parseErrors.map (·.toValue))),
      ("failures", .list (r.failures.map (·.toValue))),
      ("summary", .record
        ([("files", .nat r.files.length), ("changed", .nat r.filesChanged)] ++ r.statistics.totals.fields
          ++ [("duration_ms", .number r.durationMs)])),
      ("statistics", r.statistics.toValue order)])

end RepairReport

namespace MineReport

def json (r : MineReport) (order : FieldOrder := .asRecorded) : String :=
  Value.json (.record
    [("root", .text r.root), ("rules", .texts r.ruleIds), ("files_scanned", .nat r.filesScanned),
      ("totals", Amount.recordOf r.totals),
      ("files", .list (r.files.map fun f => order.arrange f.toValue)),
      ("parse_errors", .list (r.parseErrors.map (·.toValue))),
      ("failures", .list (r.failures.map (·.toValue)))])

end MineReport

namespace RuleDescription

def listJson (rules : List RuleDescription) : String :=
  Value.json (.list (rules.map fun r =>
    .record [("id", .text r.ruleId), ("name", .text r.name), ("description", .text r.description),
      ("severity", .text r.severity), ("repairable", .bool r.repairable),
      ("targeted_render", .bool r.targetedRender)]))

end RuleDescription
end LintRepair
