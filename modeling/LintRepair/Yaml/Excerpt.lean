import LintRepair.Text.Position
import LintRepair.Yaml.Scalar

/-!
# Complaints with their place

A complaint is reported with its line and column and with the line that it is about; a row of carets points
at the range. Long lines are cut around the place.
-/
namespace LintRepair.Yaml

/-- The longest line that is shown whole. -/
def excerptWidth : Nat := 80

def ellipsis : UInt16 := 0x2026

def blank : UInt16 := Text.unit ' '

def isLineEnd (u : UInt16) : Bool := u = 0x0A || u = 0x0D

/-- A line cut so that the column, counted from zero, is near its middle; the column moves along. -/
def cutAround (line : Text) (column : Nat) : Text × Nat :=
  let (line, column) :=
    if 60 ≤ column && excerptWidth < line.length then
      let drop := min (column - 39) (line.length - (excerptWidth - 1))
      (ellipsis :: line.drop drop, column + 1 - drop)
    else (line, column)
  (if excerptWidth < line.length then line.take (excerptWidth - 1) ++ [ellipsis] else line, column)

/-- The report of a complaint about a text. -/
def Complaint.report (c : Complaint) (text : Text) : String :=
  let starts := text.lineStarts
  let lineAt (n : Nat) : Text := text.slice (starts.getD (n - 1) 0) (starts.getD n text.length)
  let (line, column) := text.lineColumn c.start
  let (stopLine, stopColumn) := text.lineColumn c.stop
  let (shown, at_) := cutAround ((lineAt line).dropRightWhile isLineEnd) (column - 1)
  let before := lineAt (line - 1)
  let shown :=
    if 1 < line && (shown.take at_).all (· = blank) then
      (if excerptWidth < before.length then before.take (excerptWidth - 1) ++ [ellipsis, 0x0A] else before) ++ shown
    else shown
  let carets := if stopLine = line && column < stopColumn then max 1 (min (stopColumn - column) (excerptWidth - at_)) else 1
  let place := c.message ++ " at line " ++ toString line ++ ", column " ++ toString column
  if shown.any (· ≠ blank) then
    place ++ ":\n\n" ++ Text.toString shown ++ "\n" ++ String.ofList (List.replicate at_ ' ' ++ List.replicate carets '^')
      ++ "\n"
  else place

end LintRepair.Yaml
