import LintRepair.Config.Basic
import LintRepair.Fault
import LintRepair.Repair.Pass

/-!
# Settings of a run

What the command line says wins over the configuration.
-/
namespace LintRepair

/-- What the command line says; numbers are checked here. -/
structure Overrides where
  rules : Option (List String) := none
  mode : Option String := none
  maxRepairsPerRule : Option Number := none
  maxPasses : Option Number := none
  timeoutMs : Option Number := none
  concurrency : Option Number := none
  statsOutputFile : Option String := none
deriving DecidableEq, Repr, Inhabited

structure RepairSettings where
  rules : List String
  mode : RenderMode
  indentSize : Nat
  budget : Budget
  files : FilePatterns
  concurrency : Option Nat
  timeoutMs : Option Nat
  statsOutputFile : Option String
deriving DecidableEq, Repr, Inhabited

/-- A number of the command line, which has to be a whole one above zero. -/
def positiveWhole (name : String) : Option Number → Except Fault (Option Nat)
  | none => .ok none
  | some n =>
    match n.toInt? with
    | some i => if 1 ≤ i then .ok (some i.toNat) else .error (.notPositiveInteger name n)
    | none => .error (.notPositiveInteger name n)

/-- The settings of a run. -/
def RepairSettings.resolve (c : Config) (o : Overrides) : Except Fault RepairSettings := do
  let mode ← match o.mode with
    | none => pure c.render.mode
    | some s => match RenderMode.ofLabel? s with
      | some m => pure m
      | none => throw (.unknownRenderMode s)
  let rules := o.rules.getD c.rules
  if rules.isEmpty then throw .noRulesConfigured
  let repairs ← positiveWhole "max-repairs-per-rule" o.maxRepairsPerRule
  let passes ← positiveWhole "max-passes" o.maxPasses
  let concurrency ← positiveWhole "concurrency" o.concurrency
  let timeout ← positiveWhole "timeout" o.timeoutMs
  return {
    rules := firstOccurrences rules
    mode
    indentSize := c.render.indentSize
    budget := {
      repairsPerRule := match repairs.or c.budget.maxRepairsPerRule with
        | some n => .atMost n
        | none => .unbounded
      passes := .atMost (passes.getD c.budget.maxPasses) }
    files := c.files
    concurrency := concurrency.or c.concurrency
    timeoutMs := timeout.or c.timeoutMs
    statsOutputFile := o.statsOutputFile.or c.statsOutputFile }

end LintRepair
