import LintRepair.Syntax.Print.Lists
import LintRepair.Value.Literal

/-!
# Parts of many constructs

Modifiers, types behind colons, initial values, signatures and bodies.
-/
namespace LintRepair.Syntax.Print.Printer

variable (emit : Ast → Printer Unit)

/-- A node as it stands in the source. -/
def verbatim (a : Ast) : Printer Unit := do put ((← source).slice a.start a.stop)

/-- The child with a label, if there is one. -/
def part (owner : Ast) (l : Label) : Printer Unit :=
  match owner.child? l with
  | some a => emit a
  | none => pure ()

/-- The child with a label behind a blank, if there is one. -/
def spacedPart (owner : Ast) (l : Label) : Printer Unit :=
  match owner.child? l with
  | some a => do
    space
    emit a
  | none => pure ()

/-- A word that joins two parts. -/
def between (k : Kind) : Printer Unit := do
  space
  token k
  space

/-- The type behind a colon, if there is one. -/
def annotated (owner : Ast) : Printer Unit :=
  match owner.child? .type with
  | some a => do
    token .colonToken
    space
    emit a
  | none => pure ()

/-- The value behind an equals sign, if there is one; `place` is where the trivia before the sign starts. -/
def initialized (owner : Ast) (place : Nat) : Printer Unit :=
  match owner.child? .initializer with
  | some a => do
    space
    tokenOf .equalsToken place owner
    space
    emit a
  | none => pure ()

/-- The end of the last child that has one of the labels, in the order of preference. -/
def endOf (owner : Ast) (ls : List Label) : Nat :=
  ((ls.findSome? owner.child?).map (·.stop)).getD owner.fullStart

/-- Neighbours of one sort together. -/
def runsOf : List Ast → List (Bool × List Ast)
  | [] => []
  | a :: rest =>
    let isDecorator := a.kind = .decorator
    match runsOf rest with
    | (sort, run) :: more => if sort = isDecorator then (sort, a :: run) :: more else (isDecorator, [a]) :: (sort, run) :: more
    | [] => [(isDecorator, [a])]

/-- Modifiers and, unless they are left out, decorators. The answer is where they end. -/
def modifiers (owner : Ast) (decorators : Bool) : Printer Nat := do
  let all := owner.childrenOf .modifiers
  let place := ((all.getLast?).map (·.stop)).getD owner.fullStart
  let runs := runsOf all
  let only := runs.all (·.1)
  runs.forM fun (isDecorator, run) =>
    match run with
    | first :: rest =>
      let extent : ListExtent := ⟨.modifiers, 0, first.fullStart, place, false, false⟩
      if !isDecorator then filled emit owner .modifiers extent first rest
      else if decorators then filled emit owner .decorators extent first rest
      else pure ()
    | [] => pure ()
  return if only && !decorators then owner.fullStart else place

def modifiersOf (owner : Ast) (decorators : Bool := false) : Printer Unit := do
  let _ ← modifiers emit owner decorators

def typeParameters (owner : Ast) : Printer Unit := listOf emit owner .typeArguments .typeParameters

def typeArguments (owner : Ast) : Printer Unit := listOf emit owner .typeArguments .typeArguments

def parameters (owner : Ast) : Printer Unit := listOf emit owner .parameters .parameters

/-- Type parameters, parameters and the type of the result. -/
def signature (owner : Ast) : Printer Unit := do
  typeParameters emit owner
  parameters emit owner
  annotated emit owner

def semicolon : Printer Unit := token .semicolonToken

/-! ## Bodies -/

/-- A statement that is only a string. -/
def isDirective (a : Ast) : Bool :=
  a.kind = .expressionStatement && (a.child? .expression).any (·.kind = .stringLiteral)

/-- A block as the body of a function; one that is a single line in the source stays so. -/
def bodyBlock (body : Ast) : Printer Unit := do
  space
  token .openBraceToken
  let statements := body.childrenOf .statements
  let extent := body.list? .statements
  let inLine ← if body.info.multiLine then pure false else sameLine body.start body.stop
  let start := (extent.map (·.start)).getD body.stop
  let stop := (extent.map (·.stop)).getD body.stop
  let directives := statements.takeWhile isDirective
  if inLine && directives.isEmpty then
    indented (withDetached start stop (do
      modify fun p => { p with level := p.level - 1 }
      list emit body .inLine statements extent
      modify fun p => { p with level := p.level + 1 }))
  else
    indented (withDetached start stop (do
      directives.forM fun a => do
        newLine
        emit a
      list emit body .statements (statements.dropWhile isDirective) extent))
  token .closeBraceToken

/-- The body of a function, or the end of a function without one. -/
def bodyOrEnd (owner : Ast) : Printer Unit :=
  match owner.child? .body with
  | some a => bodyBlock emit a
  | none => semicolon

/-- Statements in braces. -/
def bracedStatements (a : Ast) (inLine : Bool) : Printer Unit := do
  tokenOf .openBraceToken a.fullStart a
  listOf emit a (if inLine then .inLine else .lines) .statements
  let stop := ((a.list? .statements).map (·.stop)).getD a.stop
  let _ ← tokenAt .closeBraceToken stop a !inLine

/-- Members in braces, a line each. -/
def bracedMembers (owner : Ast) (form : ListForm) : Printer Unit := do
  token .openBraceToken
  listOf emit owner form .members
  token .closeBraceToken

/-! ## Literals -/

/-- A number; separators of digits are left out, and with them the notation. -/
def numberLiteral (a : Ast) : Printer Unit := do
  let written := (← source).slice a.start a.stop
  if !written.contains (Text.unit '_') then put written
  else
    let value := a.text.toString
    let digits := (value.toList.drop 2).map fun c => (hexDigit? c.toNat).getD 0
    let based (base : Nat) : Number := .ofDecimal (digits.foldl (fun n d => n * base + d) 0 : Nat) 0
    let number := match value.toList with
      | '0' :: m :: _ =>
        if m = 'x' || m = 'X' then based 16
        else if m = 'o' || m = 'O' then based 8
        else if m = 'b' || m = 'B' then based 2
        else (Number.ofText? value).getD .nan
      | _ => (Number.ofText? value).getD .nan
    write number.text

/-- A whole number of any size, in tenths or sixteenths. -/
def largeLiteral (a : Ast) : Printer Unit :=
  let value := a.text.toString.toLower
  let digits := ((value.toList.drop 2).filter (· ≠ 'n')).map fun c => (hexDigit? c.toNat).getD 0
  let based (base : Nat) : String := toString (digits.foldl (fun n d => n * base + d) 0) ++ "n"
  match value.toList with
  | '0' :: 'o' :: _ => write (based 8)
  | '0' :: 'b' :: _ => write (based 2)
  | _ => write value

end LintRepair.Syntax.Print.Printer
