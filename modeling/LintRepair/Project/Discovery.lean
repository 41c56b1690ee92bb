import LintRepair.Config.Basic
import LintRepair.Files.Glob

/-!
# Discovery

The files that a target stands for: itself, or what the patterns of a project find below it.
-/
namespace LintRepair

/-- The places of the files below a directory that fit some patterns and no ignored one. -/
def FileTree.placesOf (t : FileTree) (directory : Route) (patterns : FilePatterns) : Except Fault (List Route) :=
  return (← Glob.files t directory patterns.includes patterns.excludes).map directory.resolve

/-- The places in the order of their paths. -/
def Route.sorted (rs : List Route) : List Route := rs.mergeSort fun a b => unitsLe a.text b.text

/-- The files of a target. A file is taken as it is, whatever the patterns say. -/
def FileTree.discover (t : FileTree) (target : Route) (patterns : FilePatterns) : Except Fault (List Route) :=
  if t.isDirectory target then return Route.sorted (← t.placesOf target patterns)
  else if t.isFile target then .ok [target]
  else .error (.pathNotFound target.text)

/-- The patterns of a run that has no configuration. -/
def FilePatterns.standard : FilePatterns where
  includes := ["**/*.\x7bts,tsx,mts,cts,js,jsx,mjs,cjs\x7d"]
  excludes := ["**/node_modules/**", "**/dist/**", "**/build/**", "**/*.d.ts"]

end LintRepair
