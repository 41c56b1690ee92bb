import LintRepair.Syntax.Print.Remarks

/-!
# Printed lists

Elements, members, statements and so on with what stands around and between them.
-/
namespace LintRepair.Syntax.Print

/-- Where the lines of a list end. -/
inductive Breaks where
  | never
  /-- Every element has a line of its own. -/
  | always
  /-- As in the source; when `opened`, the brackets are on other lines than the elements. -/
  | kept (opened : Bool)
deriving DecidableEq, Repr, Inhabited

/-- How a list is printed. -/
structure ListForm where
  breaks : Breaks := .never
  separator : Option Kind := none
  brackets : Option (Kind × Kind) := none
  indents : Bool := false
  /-- Blanks stand inside the brackets. -/
  padded : Bool := false
  /-- A blank stands between two elements of a line. -/
  spaced : Bool := true
  /-- A comma behind the last element stays. -/
  keepsComma : Bool := false
  /-- Nothing stands inside the brackets of an empty list. -/
  tight : Bool := false
  /-- An empty list is not printed at all. -/
  skipsEmpty : Bool := false
  /-- The line does not end behind the last element. -/
  openEnd : Bool := false
  /-- Comments between elements are left to the elements. -/
  quiet : Bool := false
  /-- A blank stands behind the list. -/
  spaceBehind : Bool := false
deriving DecidableEq, Repr, Inhabited

namespace ListForm

def modifiers : ListForm := { quiet := true, spaceBehind := true }

def decorators : ListForm := { breaks := .always, spaced := false, skipsEmpty := true, spaceBehind := true }

def statements : ListForm := { breaks := .always, spaced := false }

/-- Members or statements in braces, a line each. -/
def lines : ListForm := { breaks := .always, spaced := false, indents := true }

/-- Statements in braces on one line. -/
def inLine : ListForm := { padded := true }

def typeMembers : ListForm := { lines with skipsEmpty := true }

def tuple : ListForm := { breaks := .always, separator := some .commaToken, indents := true }

def joined (k : Kind) : ListForm := { separator := some k }

def objectPattern : ListForm :=
  { separator := some .commaToken, keepsComma := true, padded := true, tight := true }

def arrayPattern : ListForm := { separator := some .commaToken, keepsComma := true, tight := true }

def members (opened : Bool) : ListForm :=
  { breaks := .kept opened, separator := some .commaToken, padded := true, indents := true, tight := true
    brackets := some (.openBraceToken, .closeBraceToken), keepsComma := true }

def attributes : ListForm := { members false with keepsComma := false }

def elements (opened : Bool) : ListForm :=
  { breaks := .kept opened, separator := some .commaToken, keepsComma := true, indents := true
    brackets := some (.openBracketToken, .closeBracketToken) }

def commas : ListForm := { separator := some .commaToken }

def parameters : ListForm := { commas with brackets := some (.openParenToken, .closeParenToken) }

def indices : ListForm := { commas with indents := true, brackets := some (.openBracketToken, .closeBracketToken) }

def typeArguments : ListForm :=
  { commas with brackets := some (.lessThanToken, .greaterThanToken), skipsEmpty := true }

def enumMembers : ListForm :=
  { breaks := .always, separator := some .commaToken, spaced := false, indents := true }

def specifiers : ListForm :=
  { separator := some .commaToken, keepsComma := true, padded := true, tight := true }

def clauseLines : ListForm := { lines with openEnd := true, skipsEmpty := true }

/-- The statements of a clause that is one line. -/
def clauseLine : ListForm := { spaced := false, openEnd := true, skipsEmpty := true }

def bare : ListForm := { spaced := false }

def pieces : ListForm := { spaced := false, quiet := true }

end ListForm

namespace Printer

/-- A line ends before the first element. -/
def breaksBefore (form : ListForm) (owner first : Ast) : Printer Bool := do
  match form.breaks with
  | .never => return false
  | .always => return true
  | .kept true => return true
  | .kept false =>
    if (← get).element = some first.fullStart || first.kind = .jsxText then return false
    else return !(← sameLine owner.start first.start)

/-- A line ends between two elements. -/
def breaksBetween (form : ListForm) (previous next : Ast) : Printer Bool := do
  match form.breaks with
  | .never => return false
  | .always => return true
  | .kept _ => if next.kind = .jsxText then return false else return !(← sameLine previous.stop next.start)

/-- A line ends behind the last element. -/
def breaksBehind (form : ListForm) (owner last : Ast) : Printer Bool := do
  match form.breaks with
  | .never => return false
  | .always => return !form.openEnd
  | .kept true => return true
  | .kept false => return !(← sameLine owner.stop last.stop)

/-- Puts down what separates two elements. -/
def separator (form : ListForm) : Printer Unit :=
  match form.separator with
  | none => pure ()
  | some .commaToken => token .commaToken
  | some k => do
    space
    token k

/-- The elements of a list. `speaks` tells whether comments before the next one are still to be printed. -/
def items (emit : Ast → Printer Unit) (owner : Ast) (form : ListForm) : Bool → Option Ast → List Ast → Printer Unit
  | _, _, [] => pure ()
  | speaks, previous, a :: rest => do
    let broken ← match previous with
      | none => pure (!speaks)
      | some before => do
        if form.separator.isSome && before.stop ≠ owner.stop then leadAt before.stop
        separator form
        if ← breaksBetween form before a then
          if speaks && form.separator.isSome then
            trailWith a.fullStart (if form.spaced then afterSpace else withinLine)
          newLine
          pure true
        else
          if form.spaced then space
          pure !speaks
    if !broken && !form.quiet then trailWith a.fullStart beforeSpace
    modify fun p => { p with element := some a.fullStart }
    emit a
    items emit owner form (!form.quiet) (some a) rest

/-- Prints the elements of a list that is not empty. -/
def filled (emit : Ast → Printer Unit) (owner : Ast) (form : ListForm) (extent : ListExtent) (first : Ast)
    (rest : List Ast) : Printer Unit := do
  let broken ← breaksBefore form owner first
  if broken then newLine
  else if form.padded then space
  let last := rest.getLast?.getD first
  indentedIf form.indents (do
    items emit owner form (!broken && !form.quiet) none (first :: rest)
    let comma := extent.trailingComma && form.keepsComma
    if comma then tokenOf .commaToken last.stop last
    if form.separator.isSome && owner.stop ≠ last.stop then
      leadAt (if comma then extent.stop else last.stop))
  if ← breaksBehind form owner last then newLine
  else if form.padded || form.spaceBehind then space

/-- Prints a list of nodes. -/
def list (emit : Ast → Printer Unit) (owner : Ast) (form : ListForm) (xs : List Ast)
    (extent : Option ListExtent) : Printer Unit := do
  match extent, xs with
  | none, _ => pure ()
  | some e, [] => do
    if form.skipsEmpty then return
    match form.brackets with
    | some (k, _) => do
      token k
      trailAt e.start
    | none => pure ()
    match form.breaks with
    | .always => newLine
    | _ => if form.padded && !form.tight then space
    match form.brackets with
    | some (_, k) => do
      leadAt e.stop
      token k
    | none => pure ()
  | some e, first :: rest =>
    match form.brackets with
    | none => filled emit owner form e first rest
    | some (opening, closing) => do
      token opening
      filled emit owner form e first rest
      token closing

/-- Prints the children with a label as a list. -/
def listOf (emit : Ast → Printer Unit) (owner : Ast) (form : ListForm) (l : Label) : Printer Unit :=
  list emit owner form (owner.childrenOf l) (owner.list? l)

end Printer
end LintRepair.Syntax.Print
