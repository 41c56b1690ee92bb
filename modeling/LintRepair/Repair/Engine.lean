import LintRepair.Repair.Pass

/-!
# The repair loop

Passes follow each other until the file is clean, a pass comes to nothing, a budget runs out or the
run is interrupted. A committed pass is rendered and read again, so each pass works on fresh handles.
-/
namespace LintRepair

structure RepairOptions where
  mode : RenderMode := .targeted
  budget : Budget := {}
  /-- The abort signal is set from this look on. -/
  abortAfter : Option Nat := none
  /-- The deadline, in milliseconds, has passed. -/
  expired : Bool := false
  /-- A run without any cap on passes and repairs is given up after this many turns and one more. -/
  patience : Nat := Number.twoTo 20
deriving DecidableEq, Repr, Inhabited

structure RepairResult (σ : Type) where
  filePath : String
  document : Document σ
  changed : Bool
  stopReason : StopReason
  passes : List PassSummary
  statistics : Statistics
  remaining : List Violation
deriving Inhabited

namespace RepairResult

variable {σ : Type}

def text (r : RepairResult σ) : Text := r.document.tree.source

end RepairResult

structure Engine (σ : Type) (τ : Type := Thrown) where
  language : Language σ
  analyzer : Analyzer σ
  processors : Processors σ τ

namespace Engine

variable {σ τ : Type}

/-- The rules without repetition, if every one of them can be analyzed. -/
def validateAnalysisRules (e : Engine σ τ) (ruleIds : List String) : Except Fault (List String) :=
  let unique := firstOccurrences ruleIds
  if unique.isEmpty then .error .noRulesSelected
  else
    let unknown := unique.filter fun id => !e.analyzer.supports id
    if unknown.isEmpty then .ok unique else .error (.unknownRules unknown)

/-- The rules without repetition, if every one of them can be analyzed and repaired. -/
def validateRules (e : Engine σ τ) (ruleIds : List String) : Except Fault (List String) := do
  let unique ← e.validateAnalysisRules ruleIds
  let unrepairable := unique.filter fun id => !e.processors.has id
  if unrepairable.isEmpty then return unique else throw (.unrepairableRules unrepairable)

/-- The violations of a text; its tree is given back in any case. -/
def analyzeSource (e : Engine σ τ) (text : Text) (file : String) (ruleIds : List String) :
    Run (List Violation) := do
  let rules ← Run.lift (e.validateAnalysisRules ruleIds)
  let document ← e.language.read text file
  try
    let violations ← e.analyzer.runChecks document rules
    Run.release document.number
    return violations
  catch f =>
    Run.release document.number
    throw f

def interrupted (options : RepairOptions) : Run Bool := do
  let aborted ← match options.abortAfter with
    | some n => Run.readSignal n
    | none => pure false
  return aborted || options.expired

/-- A run between two passes. -/
structure Progress (σ : Type) where
  document : Document σ
  statistics : Statistics
  passes : List PassSummary := []
  remaining : List Violation := []
deriving Inhabited

variable [Throwable τ]

/-- One turn of the loop: analyze, and unless there is a reason to stop, run a pass. -/
def turn (e : Engine σ τ) (rules : List String) (options : RepairOptions) (number : Nat) (p : Progress σ) :
    Run (Progress σ × Option StopReason) := do
  let remaining ← e.analyzer.runChecks p.document rules
  let statistics := if number = 1 then p.statistics.addFound remaining else p.statistics
  let p := { p with remaining, statistics }
  if remaining.isEmpty then return (p, some .clean)
  if ← interrupted options then return (p, some .aborted)
  let active := remaining.filter fun v =>
    !options.budget.repairsPerRule.reached (statistics.applied v.ruleId)
  if active.isEmpty then return (p, some .budgetExhausted)
  if options.budget.passes.reached (number - 1) then return (p, some .maxPasses)
  let file := p.document.tree.filePath
  let (st, outcome) ← runPass ⟨e.language, e.processors⟩ p.document options.budget options.mode
    { pass := { file, number, violations := active }, statistics }
  let summary := st.pass.summary
  Run.log (engineSays .debug (file ++ ": pass " ++ toString number) (some summary.toValue))
  let p := { p with statistics := st.statistics, passes := p.passes ++ [summary] }
  match outcome with
  | .stopped reason => return (p, some reason)
  | .committed next => return ({ p with document := next }, none)

/-- Gives a file back unless it is the one that the run was given. -/
def releaseUnless (initial : Nat) (d : Document σ) : Run Unit :=
  if d.number = initial then pure () else Run.release d.number

/-- Turns until there is a reason to stop. -/
def turns (e : Engine σ τ) (rules : List String) (options : RepairOptions) (initial : Nat) :
    Nat → Nat → Progress σ → Run (Progress σ × StopReason)
  | 0, _, p => do
    releaseUnless initial p.document
    throw (.other "The repair does not end")
  | fuel + 1, number, p => do
    let (next, stop) ←
      try e.turn rules options number p
      catch f =>
        releaseUnless initial p.document
        throw f
    match stop with
    | some reason => return (next, reason)
    | none =>
      releaseUnless initial p.document
      turns e rules options initial fuel (number + 1) next

/-- More turns than a run within its budget can take with processors for so many rules. Nothing bounds
the turns of a run without any cap; it goes on as long as there is patience with it. -/
def turnLimit (budget : Budget) (rules : Nat) (patience : Nat := Number.twoTo 20) : Nat :=
  match budget.passes, budget.repairsPerRule with
  | .atMost n, _ => n + 1
  | .unbounded, .atMost m => rules * m + 2
  | .unbounded, .unbounded => patience + 1

/-- A run looks at its signal in every turn, so it takes no more turns than looks until it is set. -/
def silentLooks (options : RepairOptions) : Nat := options.abortAfter.getD 0

/-- Repairs a parsed file. The file is neither changed nor given back; of the files read on the way
only the returned one is not given back. -/
def repair (e : Engine σ τ) (document : Document σ) (ruleIds : List String) (options : RepairOptions) :
    Run (RepairResult σ) := do
  let rules ← Run.lift (e.validateRules ruleIds)
  let start : Progress σ := { document, statistics := Statistics.track {} rules }
  let limit :=
    turnLimit options.budget e.processors.entries.length options.patience + silentLooks options
  let (p, stopReason) ← e.turns rules options document.number limit 1 start
  return { filePath := document.tree.filePath
           document := p.document
           changed := p.document.tree.source ≠ document.tree.source
           stopReason
           passes := p.passes
           statistics := p.statistics.setRemaining p.remaining
           remaining := p.remaining }

/-- Reads and repairs a text. The returned file belongs to the caller. -/
def repairSource (e : Engine σ τ) (text : Text) (file : String) (ruleIds : List String)
    (options : RepairOptions) : Run (RepairResult σ) := do
  let rules ← Run.lift (e.validateRules ruleIds)
  let document ← e.language.read text file
  let result ←
    try e.repair document rules options
    catch f =>
      Run.release document.number
      throw f
  if result.document.number ≠ document.number then Run.release document.number
  return result

end Engine
end LintRepair
