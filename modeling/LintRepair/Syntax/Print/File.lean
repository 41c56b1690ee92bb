import LintRepair.Syntax.Grammar.File
import LintRepair.Syntax.Print.Markup
import LintRepair.Syntax.References

/-!
# Printed files

A file is printed from its syntax tree and comments alone: a statement a line, blocks opened up and blank lines
dropped.
-/
namespace LintRepair.Syntax

/-- The number of nodes on the longest way down. -/
def Ast.height : Ast → Nat
  | .node _ children => (children.attach.map fun ⟨c, _⟩ => c.height).foldl max 0 + 1

namespace Print

open Printer

/-- Prints a node that has at most `fuel` levels, with its comments. -/
def node : Nat → Ast → Printer Unit
  | 0, _ => pure ()
  | fuel + 1, a => commented a (markup (node fuel) a)

/-- The references of a file, a line each. -/
def references : Printer Unit := do
  (← source).references.forM fun r => do
    putRemark r.text
    newLine

/-- Prints the statements of a file. -/
def file (a : Ast) : Printer Unit := do
  let s ← source
  let emit := node a.height
  if s.isShebang 0 then
    putRemark (s.slice 0 (s.lineEnd 0))
    newLine
  let statements := a.childrenOf .statements
  let directives := statements.takeWhile isDirective
  directives.forM fun d => do
    newLine
    emit d
  newLine
  let extent := a.list? .statements
  let rest := do
    if (← get).ambient then references
    list emit a .statements (statements.dropWhile isDirective) extent
  if directives.isEmpty then
    withDetached ((extent.map (·.start)).getD 0) ((extent.map (·.stop)).getD a.stop) rest
  else rest

end Print

/-- The text of a file as it is printed. -/
def SourceFile.print (f : SourceFile) : Text :=
  let start : Print.Page := { source := f.source, data := f.dialect.data, ambient := f.dialect.ambient }
  ((Print.file f.ast).run start).2.text

end LintRepair.Syntax
