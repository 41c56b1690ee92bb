import LintRepair.Files.Tree
import LintRepair.Repair.Journal

/-!
# Work on files

A run on a project reads and writes a file tree and keeps a journal. What it has written and noted stays when it
fails.
-/
namespace LintRepair

structure Session where
  files : FileTree := {}
  journal : Journal := {}
deriving Inhabited

/-- A computation on a session that may fail. -/
abbrev Work := ExceptT Fault (StateM Session)

namespace Work

variable {α : Type}

/-- A run that leaves the files alone. -/
def ofRun (r : Run α) : Work α := fun s =>
  let (result, journal) := r.run.run s.journal
  (result, { s with journal })

def lift (r : Except Fault α) : Work α := fun s => (r, s)

/-- A question about the files. -/
def ask (question : FileTree → Except Fault α) : Work α := fun s => (question s.files, s)

def read (r : Route) : Work Text := ask (·.read r)

def write (r : Route) (content : Text) (path : String := r.text) : Work Unit := fun s =>
  match s.files.write r content path with
  | .ok files => (.ok (), { s with files })
  | .error f => (.error f, s)

def log (entry : LogEntry) : Work Unit := ofRun (Run.log entry)

/-- The result of a computation, which does not fail itself. -/
def settle (w : Work α) : Work (Except Fault α) := fun s =>
  let (result, s) := w.run.run s
  (.ok result, s)

/-- The result of a computation that starts from some files, and the session that it leaves. -/
def start (w : Work α) (files : FileTree) : Except Fault α × Session := w.run.run { files }

end Work
end LintRepair
