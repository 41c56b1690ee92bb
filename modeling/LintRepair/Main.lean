import LintRepair.Command.Run

/-!
# The program

Reads what a command line needs from the disk, answers it, prints the answer and writes the changed files.
-/
namespace LintRepair

/-- Adds a place of the disk to a file tree, with everything below it. What is there but cannot be read is
kept as an unreadable file. -/
partial def gather (t : FileTree) (place : Route) : IO FileTree := do
  let entry : IO.FS.DirEntry := ⟨place.parent.text, place.parts.getLast?.getD "."⟩
  if ← entry.path.isDir then
    let names := (← entry.path.readDir).map (·.fileName)
    names.foldlM (fun t name => gather t (place.step name)) { t with directories := t.directories ++ [place] }
  else if ← entry.path.pathExists then
    let file : File ← try
        let text ← IO.FS.readFile place.text
        pure { content := Text.ofString text }
      catch _ => pure { content := [], readable := false }
    return { t with files := t.files ++ [(place, file)] }
  else return t

/-- The places that a command line looks at. -/
def placesFor (directory : Route) (words : List String) : List Route :=
  match Program.offered.request words with
  | .run _ w =>
    let config := match (w.value? "config").filter (· ≠ "") with
      | some path => directory.resolve path
      | none => Config.place directory
    let target := (w.operands.head?.map directory.resolve).toList
    if target.any (·.leadsTo config) then target else target ++ [config]
  | _ => []

def store (place : Route) (file : File) : IO Unit := do
  IO.FS.createDirAll place.parent.text
  IO.FS.writeFile place.text file.content.toString

end LintRepair

open LintRepair in
def main (words : List String) : IO UInt32 := do
  let out ← IO.getStdout
  let err ← IO.getStderr
  let directory := Route.resolve {} (← IO.currentDir).toString
  let files ← (placesFor directory words).foldlM gather {}
  let response := ({ directory, colors := ← out.isTty } : Console).answer words files
  for printed in response.printed do
    match printed.channel with
    | .output => out.putStr printed.text
    | .problems => err.putStr printed.text
  for (place, file) in response.files.files do
    if (files.file? place).map (·.content) != some file.content then store place file
  return response.exitCode.toUInt32
