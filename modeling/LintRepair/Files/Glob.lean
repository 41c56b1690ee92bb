import LintRepair.Files.Pattern.Braces
import LintRepair.Files.Pattern.Parts
import LintRepair.Files.Tree

/-!
# Finding files by patterns

Patterns are looked for below a directory. A pattern behind `!` takes files away, as the ignored patterns do;
those also see hidden names. A directory is entered when a wanted pattern leads into it, and not when an ignored
pattern names it or all below it.
-/
namespace LintRepair.Glob

/-- The patterns that a list of patterns stands for. -/
def plainPatterns (patterns : List String) : Except Fault (List String) := do
  return ((← patterns.mapM Braces.expand).flatten).map Pattern.withoutEmptyParts

def isNegative (pattern : String) : Bool := pattern.startsWith "!" && !pattern.startsWith "!("

/-- A pattern without the sign that makes it negative. -/
def positive (pattern : String) : String := if isNegative pattern then (pattern.drop 1).copy else pattern

/-- A pattern that can keep a directory from being entered: it names everything below, or its last
component is plain. -/
def isBarrier (pattern : String) : Bool :=
  pattern.endsWith "/**" || !Pattern.isDynamic (Path.basename pattern)

/-- What paths are compared with. -/
structure Filter where
  wanted : List (Option Expression)
  /-- The names of the wanted patterns, level by level. -/
  levels : List (List Pattern.Level)
  ignored : List (Option Expression)
  /-- What is ignored by its path from the root. -/
  ignoredAtRoot : List (Option Expression)
  barriers : List (Option Expression)

namespace Filter

def ofPatterns (wanted ignored : List String) : Filter where
  wanted := wanted.map (Pattern.expression? false)
  levels := wanted.map fun p => (Pattern.names p).map Pattern.Level.ofName
  ignored := (ignored.filter (!·.startsWith "/")).map (Pattern.expression? true)
  ignoredAtRoot := (ignored.filter (·.startsWith "/")).map (Pattern.expression? true)
  barriers := (ignored.filter isBarrier).map (Pattern.expression? false)

/-- Whether a file is wanted, by its path from the directory and its path from the root. -/
def accepts (f : Filter) (path whole : String) : Bool :=
  f.wanted.any (Pattern.fits · path)
    && !f.ignored.any (Pattern.fits · path) && !f.ignoredAtRoot.any (Pattern.fits · whole)

/-- Whether a directory is entered. -/
def enters (f : Filter) (path : String) : Bool :=
  f.levels.any (Pattern.leadsInto · (Path.components path)) && !f.barriers.any (Pattern.fits · path)

/-- Nothing is accepted where nothing is wanted. -/
theorem accepts_of_wanted_eq_nil {f : Filter} (h : f.wanted = []) (path whole : String) :
    f.accepts path whole = false := by
  simp [accepts, h]

end Filter

/-- Patterns that are looked for from one starting point. -/
structure Task where
  base : String
  patterns : List String

/-- The tasks of patterns, each from its own starting point; one from the directory itself covers those
below it. -/
def tasks (patterns : List String) : List Task :=
  let isOutside (p : String) : Bool := p.startsWith ".." || p.startsWith "./.."
  let grouped (ps : List String) : List Task :=
    ((ps.map Pattern.base).eraseDups).map fun base => ⟨base, ps.filter fun p => Pattern.base p = base⟩
  let inside := patterns.filter (!isOutside ·)
  let near := grouped inside
  grouped (patterns.filter isOutside) ++ if near.any (·.base = ".") then [⟨".", inside⟩] else near

/-- A search: where, from which directory, and what is not wanted. -/
structure Search where
  tree : FileTree
  directory : Route
  ignored : List String

namespace Search

variable (s : Search)

def accepts (f : Filter) (path : String) : Bool :=
  let path := Pattern.withoutDot path
  f.accepts path (s.directory.resolve path).text

/-- The files that patterns without signs name. -/
def named (t : Task) : Except Fault (List String) :=
  let filter := Filter.ofPatterns t.patterns s.ignored
  match (t.patterns.map s.directory.resolve).find? s.tree.isBlocked with
  | some place => .error (FileTree.problem .notDirectory "lstat" place.text)
  | none => .ok (t.patterns.filter fun p => s.tree.isFile (s.directory.resolve p) && s.accepts filter p)

/-- The files below a starting point that are wanted and in directories that are entered. -/
def found (t : Task) : Except Fault (List String) :=
  let filter := Filter.ofPatterns t.patterns s.ignored
  let start := s.directory.resolve t.base
  if s.tree.isFile start || s.tree.isBlocked start then .error (FileTree.problem .notDirectory "scandir" start.text)
  else
    let above := if t.base = "." then [] else if t.base = "/" then [""] else Path.components t.base
    let path (way : List String) : String := String.intercalate "/" (above ++ way)
    .ok (((s.tree.filesBelow start).filter fun way =>
        (List.range (way.length - 1)).all fun n => filter.enters (Pattern.withoutDot (path (way.take (n + 1))))).map
      path |>.filter (s.accepts filter))

end Search

/-- Every path once, where a leading dot makes no difference. -/
def distinct (paths : List String) : List String :=
  paths.foldl (fun seen p =>
    if seen.any (Pattern.withoutDot · = Pattern.withoutDot p) then seen else seen ++ [p]) []

/-- What is ignored when nothing is said about it. -/
def standardIgnored : List String := ["**/node_modules/**", "**/dist/**"]

/-- The files below a directory that fit one of the patterns and none of the ignored ones, as paths from
the directory. -/
def files (t : FileTree) (directory : Route) (patterns ignored : List String) : Except Fault (List String) := do
  if patterns.contains "" then throw .emptyPattern
  let all ← plainPatterns patterns
  let ignored ← plainPatterns ignored
  let s : Search := ⟨t, directory, (all.filter isNegative ++ ignored).map positive⟩
  let wanted := all.filter (!isNegative ·)
  let named ← (tasks (wanted.filter (!Pattern.isDynamic ·))).mapM s.named
  let found ← (tasks (wanted.filter Pattern.isDynamic)).mapM s.found
  return distinct (named ++ found).flatten

end LintRepair.Glob
