import LintRepair.Config.Settings
import LintRepair.Project.Mine
import LintRepair.Repair.Engine
import LintRepair.Report.Basic
import LintRepair.Value.Fields

/-!
# Results as values

Every result of the library in the form in which it is shown field by field.
-/
namespace LintRepair

instance : Coe Text Value := ⟨fun t => .text t.toString⟩

def Span.toValue (s : Span) : Value := .record [("start", s.start), ("end", s.stop)]

def Location.toValue (l : Location) : Value :=
  .record [("line", l.line), ("column", l.column), ("start", l.start), ("end", l.stop)]

def Part.toValue : Part → Value
  | .text t => .record [("type", "text"), ("text", t)]
  | .node h => .record [("type", "node"), ("handle", h)]

def Node.toValue (h : Handle) (n : Node) : Value :=
  .record [("handle", h), ("kind", n.kind), ("parent", n.parent.map Value.int),
    ("parts", n.parts.map Part.toValue), ("span", n.span.map Span.toValue), ("dirty", n.dirty)]

def Tree.Visit.toValue (v : Tree.Visit) : Value := .list [v.handle, v.kind, v.depth]

def Pieces.toValues : Pieces → List Value
  | .nil => []
  | .text s rest => (s : Value) :: rest.toValues
  | .node kind _ _ body rest => .record [("kind", kind), ("parts", body.toValues)] :: rest.toValues

def Template.toValue (t : Template) : Value := .record [("kind", t.kind), ("parts", t.body.toValues)]

def Violation.fields (v : Violation) : List (String × Value) :=
  [("ruleId", v.ruleId), ("nodeKind", v.nodeKind), ("message", v.message), ("severity", v.severity.label),
    ("location", v.location.toValue), ("file", v.file)]

/-- A violation with the handle of its node. -/
def Violation.toValue (v : Violation) : Value := .record (("node", v.node) :: v.fields)

/-- A violation whose node is not known any more. -/
def Violation.toDetachedValue (v : Violation) : Value := .record v.fields

def Edit.fields (e : Edit) : List (String × Option Value) :=
  [("type", some e.label), ("handle", some e.touched), ("kind", e.subtree?.map fun s => .text s.kind),
    ("text", e.subtree?.map fun s => s.plain), ("separator", e.separator?.map fun s => s)]

def Edit.toValue (e : Edit) : Value := .recordOf e.fields

def PlannedEdit.toValue (p : PlannedEdit) : Value :=
  .recordOf (("ruleId", some p.ruleId) :: ("depth", some p.depth) :: ("start", some p.start)
    :: ("order", some p.order) :: p.edit.fields)

def Outcome.toValue : Outcome → Value
  | .applied edits => .record [("status", "applied"), ("edits", .list (edits.map Edit.toValue))]
  | .declined reason => .record [("status", "declined"), ("reason", reason)]
  | .crashed cause => .record [("status", "crashed"), ("cause", cause)]

def Printed.toValue (p : Printed) : Value :=
  let channel := match p.channel with
    | .output => "out"
    | .problems => "err"
  .list [channel, p.text]

namespace RepairResult

variable {σ : Type}

/-- What every view of a result shows. -/
def summaryFields (r : RepairResult σ) : List (String × Value) :=
  [("filePath", r.filePath), ("text", r.text), ("changed", r.changed), ("stopReason", r.stopReason.label),
    ("passes", r.passes.map PassSummary.toValue), ("statistics", r.statistics.toValue .asRecorded)]

/-- A result whose tree has been given back. -/
def toValue (r : RepairResult σ) : Value :=
  .record (("remaining", r.remaining.map Violation.toDetachedValue) :: r.summaryFields)

/-- A result whose tree is still held. -/
def toLiveValue (r : RepairResult σ) : Value :=
  .record (("remaining", r.remaining.map Violation.toValue)
    :: ("dirty", (r.document.tree.isDirty Tree.root).toOption.getD false) :: r.summaryFields)

end RepairResult

def RuleCheck.toValue {σ : Type} (c : RuleCheck σ) : Value :=
  .record [("ruleId", c.ruleId), ("name", c.name), ("description", c.description),
    ("severity", c.severity.label)]

def Processor.toValue {σ τ : Type} (p : Processor σ τ) : Value :=
  .record [("ruleId", p.ruleId), ("name", p.name), ("description", p.description),
    ("supportsTargetedRender", p.targeted)]

def RuleDescription.toValue (r : RuleDescription) : Value :=
  .record [("ruleId", r.ruleId), ("name", r.name), ("description", r.description), ("severity", r.severity),
    ("repairable", r.repairable), ("targetedRender", r.targetedRender)]

def Cap.toValue : Cap → Value
  | .atMost n => n
  | .unbounded => Number.infinity

def RepairSettings.toValue (s : RepairSettings) : Value :=
  .recordOf [("rules", some (.texts s.rules)), ("mode", some s.mode.label), ("indentSize", some s.indentSize),
    ("budget", some (.record [("maxRepairsPerRule", s.budget.repairsPerRule.toValue),
      ("maxPasses", s.budget.passes.toValue)])),
    ("include", some (.texts s.files.includes)), ("exclude", some (.texts s.files.excludes)),
    ("concurrency", s.concurrency.map Value.nat), ("timeoutMs", s.timeoutMs.map Value.nat),
    ("statsOutputFile", s.statsOutputFile.map Value.text)]

/-! ## Results of project runs -/

def FileRepair.toValue (f : FileRepair) : Value :=
  .record [("filePath", f.filePath), ("originalText", f.textBefore), ("repairedText", f.textAfter),
    ("changed", f.changed), ("written", f.written), ("stopReason", f.stopReason.label),
    ("passes", f.passes.map PassSummary.toValue), ("statistics", f.statistics.toValue .asRecorded),
    ("remaining", f.remaining.map Violation.toDetachedValue)]

def ProjectRepair.toValue (r : ProjectRepair) : Value :=
  .record [("root", r.root), ("files", r.files.map FileRepair.toValue),
    ("parseErrors", r.parseErrors.map FileNote.toValue), ("failures", r.failures.map FileNote.toValue),
    ("statistics", r.statistics.toValue .asRecorded), ("filesChanged", r.filesChanged)]

def MineReport.toValue (r : MineReport) : Value :=
  .record [("root", r.root), ("ruleIds", .texts r.ruleIds), ("files", r.files.map MinedFile.toValue),
    ("totals", Amount.recordOf r.totals), ("filesScanned", r.filesScanned),
    ("parseErrors", r.parseErrors.map FileNote.toValue), ("failures", r.failures.map FileNote.toValue)]

end LintRepair
