import LintRepair.Report.Basic
import LintRepair.Wording

/-!
# Reports for people
-/
namespace LintRepair

structure HumanStyle where
  colors : Bool := true
  /-- List every file, also an unchanged one without violations. -/
  verbose : Bool := false
  dryRun : Bool := false
deriving DecidableEq, Repr, Inhabited

namespace HumanStyle

/-- Longer messages are cut to this many units. -/
def maxMessage : Int := 100

variable (h : HumanStyle)

def red (s : String) : String := Style.red.paintIf h.colors s
def green (s : String) : String := Style.green.paintIf h.colors s
def yellow (s : String) : String := Style.yellow.paintIf h.colors s
def cyan (s : String) : String := Style.cyan.paintIf h.colors s
def dim (s : String) : String := Style.dim.paintIf h.colors s
def bold (s : String) : String := Style.bold.paintIf h.colors s

def fileLines (f : FileReport) : List String :=
  let icon := if f.remaining.isEmpty then h.green "✓" else h.yellow "⚠"
  let status :=
    if f.changed then h.green (if h.dryRun then "WOULD CHANGE" else "CHANGED") else h.dim "UNCHANGED"
  (icon ++ " " ++ status ++ ": " ++ f.filePath ++ " (" ++ pluralize f.repairsApplied "repair" ++ ", "
      ++ f.stopReason ++ ")")
    :: f.remaining.map fun v =>
      "   " ++ h.dim ("Line " ++ toString v.location.line ++ ":" ++ toString v.location.column) ++ " "
        ++ v.ruleId ++ ": " ++ truncate v.message maxMessage

def noteLines (label : String) (n : FileNote) : List String :=
  [h.red "✗" ++ " " ++ h.red label ++ ": " ++ n.file, "   " ++ h.dim n.message]

def ruleLine (r : RuleStatistics) : String :=
  "   " ++ r.ruleId ++ ": " ++ toString r.counts.found ++ " found, " ++ toString r.counts.applied
    ++ " applied, " ++ toString r.counts.declined ++ " declined, " ++ toString r.counts.crashes
    ++ " crashed, " ++ toString r.counts.remaining ++ " remaining"

def crashLine (c : CrashRecord) : String :=
  "   " ++ c.file ++ ":" ++ toString c.line ++ ":" ++ toString c.column ++ " " ++ c.ruleId ++ " on "
    ++ c.nodeKind ++ " (pass " ++ toString c.pass ++ "): " ++ truncate c.message maxMessage

def crashLines (cs : List CrashRecord) : List String :=
  if cs.isEmpty then []
  else "" :: h.red ("Crashes (" ++ toString cs.length ++ "):") :: cs.map crashLine

/-- Lines with an empty one behind them, unless there are none. -/
def block (lines : List String) : List String := if lines.isEmpty then [] else lines ++ [""]

def repairLines (r : RepairReport) : List String :=
  let shown := r.files.filter fun f => f.changed || !f.remaining.isEmpty || h.verbose
  let totals := r.statistics.totals
  let changed := toString r.filesChanged ++ (if h.dryRun then " would change" else " changed")
  let left := toString totals.remaining ++ " remaining"
  block (shown.flatMap h.fileLines ++ r.parseErrors.flatMap (h.noteLines "SKIPPED")
      ++ r.failures.flatMap (h.noteLines "FAILED"))
    ++ h.bold "Rules:" :: r.statistics.sortedRules.map ruleLine
    ++ h.crashLines r.statistics.crashes
    ++ ["", h.bold "Summary:" ++ " " ++ pluralize r.files.length "file" ++ ", "
          ++ (if r.filesChanged > 0 then h.green changed else h.dim changed) ++ ", "
          ++ pluralize totals.applied "repair" ++ " applied, "
          ++ (if totals.remaining > 0 then h.yellow left else h.dim left)]
    ++ if h.dryRun then [h.yellow "Dry run: no files were written."] else []

def repair (r : RepairReport) : String := String.intercalate "\n" (h.repairLines r)

def minedLines (f : MinedFile) : List String :=
  f.file :: (Value.inKeyOrder f.counts).map fun (id, n) => "   " ++ id ++ ": " ++ n.text

def totalLine (r : MineReport) (id : String) : String :=
  let n := (Amount.at? r.totals id).getD (.number (.decimal 0 0))
  let positive : Bool := match n with
    | .number (.decimal c _) => 0 < c
    | .number .infinity => true
    | _ => false
  "   " ++ id ++ ": " ++ if positive then h.yellow n.text else h.dim n.text

def mineLines (r : MineReport) : List String :=
  block (r.files.flatMap minedLines)
    ++ h.bold "Totals:" :: r.ruleIds.map (h.totalLine r)
    ++ ["", "Scanned " ++ pluralize r.filesScanned "file" ++ "; " ++ toString r.files.length
          ++ " with violations."]
    ++ r.parseErrors.map fun n => h.red ("Skipped " ++ n.file ++ ": " ++ n.message)

def mine (r : MineReport) : String := String.intercalate "\n" (h.mineLines r)

def ruleFlags (r : RuleDescription) : List String :=
  r.severity :: if !r.repairable then ["no processor"] else if !r.targetedRender then ["full render"] else []

def rules (rs : List RuleDescription) : String :=
  let width := (rs.map fun r => (Text.ofString r.ruleId).length).foldl max 0
  String.intercalate "\n" (rs.map fun r =>
    h.cyan (padRight r.ruleId width) ++ "  " ++ r.description ++ " "
      ++ h.dim ("[" ++ String.intercalate ", " (ruleFlags r) ++ "]"))

end HumanStyle
end LintRepair
