import LintRepair.Command.Declaration

/-!
# The commands on offer
-/
namespace LintRepair

namespace CommandOption

def rules (default : String) : CommandOption :=
  { short := some 'r', long := "rules", placeholder := some "ids"
    description := "Comma-separated rule ids (default: " ++ default ++ ")" }

def concurrency (activity : String) : CommandOption :=
  { long := "concurrency", placeholder := some "n", whole := true, description := "Files " ++ activity ++ " in parallel" }

def json : CommandOption := { long := "json", description := "Output as JSON" }

def config : CommandOption :=
  { short := some 'c', long := "config", placeholder := some "path", description := "Path to config file" }

def verbose (what : String) : CommandOption := { long := "verbose", description := what }

def quiet : CommandOption := { short := some 'q', long := "quiet", description := "Suppress logging" }

end CommandOption

namespace Command

def repair : Command where
  kind := .repair
  name := "repair"
  description := "Repair rule violations in a file or directory"
  arguments := [⟨"path", "File or directory to repair"⟩]
  options := [
    .rules "rules from config",
    { short := some 'm', long := "mode", placeholder := some "mode", description := "Render mode: targeted or full" },
    { long := "max-repairs-per-rule", placeholder := some "n", whole := true
      description := "Cap on applied repairs per rule and file" },
    { long := "max-passes", placeholder := some "n", whole := true, description := "Cap on repair passes per file" },
    { long := "timeout", placeholder := some "ms", whole := true, description := "Time limit for the whole run" },
    .concurrency "repaired",
    { long := "stats-output", placeholder := some "file", description := "Write a JSON statistics report" },
    { long := "dry-run", description := "Report what would change without writing files" },
    .json, .config, .verbose "Show every file and debug logging", .quiet]

def mine : Command where
  kind := .mine
  name := "mine"
  description := "Count rule violations per file without changing anything"
  arguments := [⟨"path", "File or directory to analyze"⟩]
  options := [.rules "all built-in rules", .concurrency "analyzed", .json, .config, .verbose "Debug logging", .quiet]

def rules : Command where
  kind := .listRules
  name := "rules"
  description := "List the built-in rules"
  options := [.json]

end Command

/-- The program with its commands. -/
def Program.offered : Program where
  name := "tsmend"
  description := "Repair static-analysis rule violations in TypeScript and JavaScript sources"
  version := "0.1.0"
  commands := [.repair, .mine, .rules]

end LintRepair
