import LintRepair.Config.Schema
import LintRepair.Project.Work
import LintRepair.Yaml.Read

/-!
# Loading a configuration

A configuration is written as a YAML document. A project's configuration stands in a fixed place, unless the
command line names another one. A project without one gets the defaults.
-/
namespace LintRepair

/-- The value of a YAML text. -/
def Value.ofYaml (text : String) : Except Fault Value :=
  match Yaml.parse text with
  | .ok v => .ok v
  | .error m => .error (.yaml ("Failed to parse YAML: " ++ m))

/-- The configuration that a YAML text describes. -/
def Config.ofYaml (text : String) : Except Fault Config := do
  let v ← Value.ofYaml text
  match Config.ofValue v with
  | .ok c => return c
  | .error m => throw (.yaml ("YAML validation failed: " ++ m))

/-- A configuration document in a file; a fault names the file. -/
def Config.ofFile (place : Route) : Work Config := do
  match ← (Work.read place).settle with
  | .error _ => throw (.yaml ("Failed to load YAML file: " ++ place.text))
  | .ok content =>
    match Config.ofYaml content.toString with
    | .error f => throw (.yaml (f.message ++ " (file: " ++ place.text ++ ")"))
    | .ok c => return c

/-- Where a project keeps its configuration. -/
def Config.place (project : Route) : Route := project.resolve ".tsmend/config.yaml"

/-- The configuration of a project. A file that was asked for by name has to be there. -/
def Config.load (project : Route) (named : Option String) : Work Config := do
  let asked := named.filter (· ≠ "")
  let place := match asked with
    | some path => project.resolve path
    | none => Config.place project
  if !(← Work.ask fun t => .ok (t.isThere place)) then
    if asked.isSome then throw (.configNotFound place.text) else return {}
  match ← (Config.ofFile place).settle with
  | .ok c => return c
  | .error f => throw (.configUnreadable place.text f.message)

end LintRepair
