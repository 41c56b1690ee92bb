import LintRepair.Repair.Batch

/-!
# Configuration

What a project says about its repairs, with a default for everything that it leaves out.
-/
namespace LintRepair

structure RenderConfig where
  mode : RenderMode := .targeted
  /-- The width of a level in a file that is printed in full. -/
  indentSize : Nat := 4
deriving DecidableEq, Repr, Inhabited

structure BudgetConfig where
  /-- Applied repairs a rule and file; nothing for no cap. -/
  maxRepairsPerRule : Option Nat := none
  maxPasses : Nat := 10
deriving DecidableEq, Repr, Inhabited

/-- Which files belong to a project. -/
structure FilePatterns where
  includes : List String := ["**/*.ts", "**/*.tsx", "**/*.mts", "**/*.cts", "**/*.js", "**/*.jsx",
    "**/*.mjs", "**/*.cjs"]
  excludes : List String := ["**/node_modules/**", "**/dist/**", "**/build/**", "**/*.d.ts"]
deriving DecidableEq, Repr, Inhabited

structure Config where
  version : String := "1.0"
  /-- The rules repaired when none are given on the command line. -/
  rules : List String := []
  render : RenderConfig := {}
  budget : BudgetConfig := {}
  files : FilePatterns := {}
  /-- Files repaired side by side. -/
  concurrency : Option Nat := none
  timeoutMs : Option Nat := none
  /-- Where the report of a run is written. -/
  statsOutputFile : Option String := none
deriving DecidableEq, Repr, Inhabited

namespace Config

def toValue (c : Config) : Value :=
  .recordOf
    [("version", some (.text c.version)), ("rules", some (.texts c.rules)),
      ("render", some (.record [("mode", .text c.render.mode.label), ("indent_size", .nat c.render.indentSize)])),
      ("budget", some (.record
        [("max_repairs_per_rule", (c.budget.maxRepairsPerRule.map Value.nat).getD .null),
          ("max_passes", .nat c.budget.maxPasses)])),
      ("files", some (.record [("include", .texts c.files.includes), ("exclude", .texts c.files.excludes)])),
      ("concurrency", c.concurrency.map Value.nat), ("timeout_ms", c.timeoutMs.map Value.nat),
      ("stats_output_file", c.statsOutputFile.map Value.text)]

end Config
end LintRepair
