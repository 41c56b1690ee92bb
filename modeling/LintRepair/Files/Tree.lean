import LintRepair.Fault
import LintRepair.Files.Route
import LintRepair.Text.Basic

/-!
# File trees

The files that a run reads and writes, as a value. Writing a file makes the directories on the way to it.
-/
namespace LintRepair

structure File where
  content : Text
  readable : Bool := true
  writable : Bool := true
deriving DecidableEq, Repr, Inhabited

/-- Files by their place, and directories that need not hold a file. Every place above one of them is a
directory too. -/
structure FileTree where
  files : List (Route × File) := []
  directories : List Route := []
deriving DecidableEq, Repr, Inhabited

namespace FileTree

def file? (t : FileTree) (r : Route) : Option File := t.files.lookup r

def isFile (t : FileTree) (r : Route) : Bool := (t.file? r).isSome

def isDirectory (t : FileTree) (r : Route) : Bool :=
  !t.isFile r && (r.parts.isEmpty || t.directories.any r.leadsTo || t.files.any fun f => r.leadsTo f.1)

def isThere (t : FileTree) (r : Route) : Bool := t.isFile r || t.isDirectory r

/-- Whether a file stands where a directory would have to be on the way to a place. -/
def isBlocked (t : FileTree) (r : Route) : Bool := r.ancestors.any t.isFile

/-- The fault of a system call on a path. -/
def problem (obstacle : FileObstacle) (call path : String) : Fault := .file ⟨obstacle, call, some path⟩

def read (t : FileTree) (r : Route) : Except Fault Text :=
  match t.file? r with
  | some f => if f.readable then .ok f.content else .error (problem .denied "open" r.text)
  | none =>
    if t.isBlocked r then .error (problem .notDirectory "open" r.text)
    else if t.isDirectory r then .error (.file ⟨.isDirectory, "read", none⟩)
    else .error (problem .missing "open" r.text)

/-- Makes a directory and those on the way to it. Faults show the path by which the place was given. -/
def makeDirectory (t : FileTree) (r : Route) (path : String := r.text) : Except Fault FileTree :=
  if t.isBlocked r then .error (problem .notDirectory "mkdir" path)
  else if t.isFile r then .error (problem .taken "mkdir" path)
  else .ok (if t.isDirectory r then t else { t with directories := t.directories ++ [r] })

/-- Changes the content of a file or adds the file at the end. -/
def setContent (r : Route) (content : Text) : List (Route × File) → List (Route × File)
  | [] => [(r, { content })]
  | (place, f) :: rest =>
    if place = r then (place, { f with content }) :: rest else (place, f) :: setContent r content rest

def put (t : FileTree) (r : Route) (content : Text) : FileTree :=
  { t with files := setContent r content t.files }

/-- Writes a file, making its directory first. A path that ends in a slash cannot name a file. -/
def write (t : FileTree) (r : Route) (content : Text) (path : String := r.text) : Except Fault FileTree := do
  let t ← t.makeDirectory r.parent (Path.parent path)
  if t.isDirectory r || path.endsWith "/" then throw (problem .isDirectory "open" path)
  if (t.file? r).any (!·.writable) then throw (problem .denied "open" path)
  return t.put r content

/-- The files below a directory, each by the way to it. -/
def filesBelow (t : FileTree) (directory : Route) : List (List String) :=
  (t.files.filter fun f => directory.leadsTo f.1).map fun f => f.1.below directory

theorem lookup_setContent (r : Route) (content : Text) (files : List (Route × File)) :
    ((setContent r content files).lookup r).map (·.content) = some content := by
  induction files with
  | nil => simp [setContent]
  | cons f rest ih =>
    obtain ⟨place, file⟩ := f
    by_cases h : place = r
    · simp [setContent, h]
    · have hr : (r == place) = false := beq_eq_false_iff_ne.2 (Ne.symm h)
      simpa only [setContent, h, ↓reduceIte, List.lookup_cons, hr] using ih

/-- What was put at a place is there. -/
theorem content_put (t : FileTree) (r : Route) (content : Text) :
    ((t.put r content).file? r).map (·.content) = some content :=
  lookup_setContent r content t.files

theorem lookup_setContent_of_ne {r other : Route} (h : other ≠ r) (content : Text)
    (files : List (Route × File)) : (setContent r content files).lookup other = files.lookup other := by
  have hr : (other == r) = false := beq_eq_false_iff_ne.2 h
  induction files with
  | nil => simp only [setContent, List.lookup_cons, hr]
  | cons f rest ih =>
    obtain ⟨place, file⟩ := f
    by_cases hp : place = r
    · simp only [setContent, hp, ↓reduceIte, List.lookup_cons, hr]
    · simp only [setContent, hp, ↓reduceIte, List.lookup_cons, ih]

/-- Putting a file leaves the other files alone. -/
theorem file?_put_of_ne (t : FileTree) {r other : Route} (h : other ≠ r) (content : Text) :
    (t.put r content).file? other = t.file? other :=
  lookup_setContent_of_ne h content t.files

end FileTree
end LintRepair
