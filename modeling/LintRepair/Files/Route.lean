/-!
# Paths and routes

Paths are strings with slashes. The last component of a path names a file, and what follows the last dot in
it, unless the dot comes first, is its extension.

A route names a place in a file tree by the components on the way from the root. Every path leads from a
directory to exactly one route.
-/
namespace LintRepair

namespace Path

/-- The components of a path; empty ones stand at slashes that begin or end it or follow each other. -/
def components (path : String) : List String := path.splitOn "/"

/-- The last component that is not empty. -/
def basename (path : String) : String := ((components path).filter (· ≠ "")).getLast?.getD ""

/-- The path of the directory that a path names something in. -/
def parent (path : String) : String :=
  let bare := (path.toList.reverse.dropWhile (· = '/')).dropWhile (· ≠ '/')
  match bare, bare.dropWhile (· = '/') with
  | [], _ => if path.startsWith "/" then "/" else "."
  | _, [] => "/"
  | _, cs => String.ofList cs.reverse

/-- The characters from the last dot on, and those before it. -/
def splitLastDot (cs : List Char) : Option (List Char × List Char) :=
  let back := cs.reverse
  let tail := back.takeWhile (· ≠ '.')
  match back.dropWhile (· ≠ '.') with
  | [] => none
  | _ :: front => some (front.reverse, '.' :: tail.reverse)

/-- The extension of a file's name with its dot, or nothing. -/
def extension (path : String) : String :=
  match splitLastDot (basename path).toList with
  | some (front, ext) => if front.all (· = '.') then "" else String.ofList ext
  | none => ""

/-- What follows the last dot of a file's name, with the dot. -/
def suffix (path : String) : String :=
  match splitLastDot (basename path).toList with
  | some (_, ext) => String.ofList ext
  | none => ""

end Path

structure Route where
  parts : List String := []
deriving DecidableEq, Repr, Inhabited

namespace Route

/-- The absolute path of a place. -/
def text (r : Route) : String := "/" ++ String.intercalate "/" r.parts

/-- One step along a path: to the parent, nowhere, or down. -/
def step (r : Route) : String → Route
  | "" => r
  | "." => r
  | ".." => ⟨r.parts.dropLast⟩
  | name => ⟨r.parts ++ [name]⟩

/-- The place that a path leads to from a directory; an absolute path starts at the root. -/
def resolve (directory : Route) (path : String) : Route :=
  (Path.components path).foldl step (if path.startsWith "/" then {} else directory)

def parent (r : Route) : Route := ⟨r.parts.dropLast⟩

/-- Whether the first place is the second or lies above it. -/
def leadsTo (above r : Route) : Bool := above.parts.isPrefixOf r.parts

/-- The places strictly above, from the root on. -/
def ancestors (r : Route) : List Route := (List.range r.parts.length).map fun n => ⟨r.parts.take n⟩

/-- The way from a place above. -/
def below (r above : Route) : List String := r.parts.drop above.parts.length

theorem leadsTo_refl (r : Route) : r.leadsTo r = true := by simp [leadsTo]

end Route
end LintRepair
