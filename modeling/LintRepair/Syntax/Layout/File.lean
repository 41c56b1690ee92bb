import LintRepair.Syntax.Layout.Walk
import LintRepair.Syntax.Print.File

/-!
# Files laid out

A file is printed from its tree, and what is printed is laid out: white space between tokens, indentation and
line ends follow the rules of spacing and nesting.
-/
namespace LintRepair.Syntax

namespace SourceFile

/-- The changes that lay out a file, with levels of the given width. -/
def layoutChanges (f : SourceFile) (width : Nat) : List Layout.Change :=
  let start : Layout.Walk :=
    { lines := .ofSource f.source width
      cursor := { source := f.source, dialect := f.dialect }
      within := ⟨f.ast, []⟩ }
  ((Layout.Walker.text f.ast).run start).2.changes.reverse

/-- The text of a file laid out with levels of the given width. -/
def layout (f : SourceFile) (width : Nat) : Text := Layout.Change.apply f.source (f.layoutChanges width)

/-- The text ends with its last line. -/
def closeLine (t : Text) : Text :=
  if t.getLast? = some (Text.unit '\n') then t else t ++ [Text.unit '\n']

/-- A carriage return before a line feed is left out. -/
def plainLines : Text → Text
  | [] => []
  | c :: rest =>
    if c = Text.unit '\r' && rest.head? = some (Text.unit '\n') then plainLines rest else c :: plainLines rest

/-- The text of a file that is printed from its tree and laid out. -/
def reprint (f : SourceFile) (width : Nat) : Text :=
  closeLine (plainLines ((read f.dialect (.ofText f.print)).layout width))

end SourceFile
end LintRepair.Syntax
