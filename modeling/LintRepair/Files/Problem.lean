/-!
# File problems

What stands in the way of an operation on files, worded as the operating system words it.
-/
namespace LintRepair

inductive FileObstacle where
  | missing
  | isDirectory
  | notDirectory
  | taken
  | denied
deriving DecidableEq, Repr, Inhabited

namespace FileObstacle

def message : FileObstacle → String
  | missing => "ENOENT: no such file or directory"
  | isDirectory => "EISDIR: illegal operation on a directory"
  | notDirectory => "ENOTDIR: not a directory"
  | taken => "EEXIST: file already exists"
  | denied => "EACCES: permission denied"

end FileObstacle

structure FileProblem where
  obstacle : FileObstacle
  /-- The system call that met the obstacle. -/
  call : String
  /-- The path that the call was given, unless it worked on an open file. -/
  path : Option String := none
deriving DecidableEq, Repr, Inhabited

namespace FileProblem

def message (p : FileProblem) : String :=
  p.obstacle.message ++ ", " ++ p.call ++ match p.path with
    | some path => " '" ++ path ++ "'"
    | none => ""

end FileProblem
end LintRepair
