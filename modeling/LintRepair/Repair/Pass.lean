import LintRepair.Repair.Journal
import LintRepair.Repair.Overlap
import LintRepair.Repair.Statistics

/-!
# One pass over one file

A pass takes the active violations in rounds: it resolves them, hands the accepted ones to their
processors, and gives what was only displaced by a repair that came to nothing another round. Then it
selects the edit sets that keep clear of each other.
-/
namespace LintRepair

/-- A bound on a count. -/
inductive Cap where
  | atMost (n : Nat)
  | unbounded
deriving DecidableEq, Repr, Inhabited

namespace Cap

def reached : Cap → Nat → Bool
  | atMost n, used => n ≤ used
  | unbounded, _ => false

end Cap

structure Budget where
  /-- Applied repairs a rule. -/
  repairsPerRule : Cap := .unbounded
  passes : Cap := .atMost 10
deriving DecidableEq, Repr, Inhabited

/-- The bookkeeping of a pass: every violation it met, in the bucket that tells its fate. -/
structure Pass where
  file : String
  number : Nat
  violations : List Violation
  accepted : List Violation := []
  deferred : List Violation := []
  /-- Accepted, but the rule had no repair left. -/
  skipped : List Violation := []
  declined : List Violation := []
  crashes : List CrashRecord := []
  /-- Edit sets as they came from the processors. -/
  produced : List EditSet := []
  /-- Edit sets that went into the batch. -/
  selected : List EditSet := []
  conflicts : List EditSet := []
  renderMode : Option RenderMode := none
  committed : Bool := false
deriving Repr, Inhabited

structure PassSummary where
  number : Nat
  violations : Nat
  accepted : Nat
  deferred : Nat
  applied : Nat
  declined : Nat
  crashed : Nat
  conflicts : Nat
  skipped : Nat
  renderMode : Option RenderMode
  committed : Bool
deriving DecidableEq, Repr, Inhabited

namespace Pass

def producedFor (p : Pass) (ruleId : String) : Nat := p.produced.countP fun s => s.ruleId = ruleId

def summary (p : Pass) : PassSummary :=
  { number := p.number
    violations := p.violations.length
    accepted := p.accepted.length
    deferred := p.deferred.length
    applied := if p.committed then p.selected.length else 0
    declined := p.declined.length
    crashed := p.crashes.length
    conflicts := p.conflicts.length
    skipped := p.skipped.length
    renderMode := p.renderMode
    committed := p.committed }

end Pass

namespace PassSummary

def toValue (s : PassSummary) : Value :=
  .recordOf
    [("pass", some (.nat s.number)), ("violations", some (.nat s.violations)),
      ("accepted", some (.nat s.accepted)), ("deferred", some (.nat s.deferred)),
      ("applied", some (.nat s.applied)), ("declined", some (.nat s.declined)),
      ("crashed", some (.nat s.crashed)), ("conflicts", some (.nat s.conflicts)),
      ("skipped", some (.nat s.skipped)), ("renderMode", s.renderMode.map fun m => .text m.label),
      ("committed", some (.bool s.committed))]

end PassSummary

/-- A pass under way. -/
structure PassState where
  pass : Pass
  statistics : Statistics
  /-- The nodes held by repairs that produced edits. -/
  claimed : List Handle := []
deriving Repr, Inhabited

/-- What the rounds of a pass work with. -/
structure Workshop (σ : Type) (τ : Type := Thrown) where
  language : Language σ
  processors : Processors σ τ

variable {σ τ : Type}

def engineSays (level : LogLevel) (message : String) (data : Option Value := none) : LogEntry :=
  ⟨level, "engine", message, data.map Value.json⟩

namespace PassState

def crash (st : PassState) (v : Violation) (message : String) : Run PassState := do
  let record : CrashRecord :=
    ⟨v.ruleId, v.file, v.location.line, v.location.column, v.nodeKind, st.pass.number, message⟩
  Run.log (engineSays .warn ("Processor for '" ++ v.ruleId ++ "' crashed at " ++ v.file ++ ":"
    ++ toString record.line ++ ":" ++ toString record.column ++ ": " ++ message))
  return { st with
    pass := { st.pass with crashes := st.pass.crashes ++ [record] }
    statistics := st.statistics.addCrash record }

/-- Records something thrown under its wording, if that can be had. -/
def crashOn [Throwable τ] (st : PassState) (v : Violation) (thrown : τ) : Run PassState := do
  st.crash v (← Run.lift (Throwable.wording thrown))

def decline (st : PassState) (v : Violation) : PassState :=
  { st with
    pass := { st.pass with declined := st.pass.declined ++ [v] }
    statistics := st.statistics.addDeclined v.ruleId }

def produce (st : PassState) (set : EditSet) : PassState :=
  { st with
    pass := { st.pass with produced := st.pass.produced ++ [set] }
    claimed := st.claimed ++ set.touched }

/-- Why an edit set cannot be used: it touches a node that is gone, or the root. -/
def problem? (t : Tree) (edits : List Edit) : Option String :=
  edits.findSome? fun e =>
    match t.node? e.touched with
    | none => some (e.label ++ " edit references node " ++ toString e.touched ++ ", which is not in the tree")
    | some node =>
      if node.parent.isNone then some (e.label ++ " edit targets the root node") else none

/-- Hands one violation to its processor and files what comes back. -/
def invoke [Throwable τ] (shop : Workshop σ τ) (d : Document σ) (st : PassState) (v : Violation) : Run PassState := do
  match shop.processors.get? v.ruleId with
  | none => st.crash v "no processor registered"
  | some processor =>
    match processor.apply ⟨d.tree, d.parsed, v.node, v, shop.language.fragments d.tree.filePath⟩ with
    | .error thrown => st.crashOn v thrown
    | .ok (.crashed cause) => st.crash v cause
    | .ok (.declined _) => return st.decline v
    | .ok (.applied edits) =>
      if edits.isEmpty then return st.decline v
      else match problem? d.tree edits with
        | some problem => st.crash v problem
        | none => return st.produce ⟨v, edits, processor.targeted⟩

/-- Takes the accepted violations of a round one after the other. -/
def work [Throwable τ] (shop : Workshop σ τ) (d : Document σ) (budget : Budget) :
    PassState → List Violation → Run PassState
  | st, [] => return st
  | st, v :: rest => do
    if budget.repairsPerRule.reached (st.statistics.applied v.ruleId + st.pass.producedFor v.ruleId) then
      work shop d budget { st with pass := { st.pass with skipped := st.pass.skipped ++ [v] } } rest
    else work shop d budget (← st.invoke shop d v) rest

/-- Rounds over the candidates until none is left or none is accepted. -/
def rounds [Throwable τ] (shop : Workshop σ τ) (d : Document σ) (budget : Budget) (candidates : List Violation)
    (st : PassState) : Run PassState :=
  if candidates.isEmpty then return st
  else
    match h : d.tree.resolveConflicts candidates st.claimed with
    | .error f => throw f
    | .ok split =>
      let st := { st with pass := { st.pass with deferred := split.waiting } }
      if _hne : split.taken = [] then return st
      else do
        let st := { st with pass := { st.pass with accepted := st.pass.accepted ++ split.taken } }
        rounds shop d budget split.waiting (← st.work shop d budget split.taken)
termination_by candidates.length
decreasing_by
  have hl := Tree.length_resolveConflicts h
  have := List.length_pos_iff.2 _hne
  omega

end PassState

inductive StopReason where
  | clean
  | fixedPoint
  | budgetExhausted
  | maxPasses
  | aborted
  | passFailure
deriving DecidableEq, Repr, Inhabited

namespace StopReason

def label : StopReason → String
  | clean => "clean"
  | fixedPoint => "fixed-point"
  | budgetExhausted => "budget-exhausted"
  | maxPasses => "max-passes"
  | aborted => "aborted"
  | passFailure => "pass-failure"

def ofLabel? (s : String) : Option StopReason :=
  [clean, fixedPoint, budgetExhausted, maxPasses, aborted, passFailure].find? (·.label = s)

end StopReason

/-- How a pass ends: with a file to go on with, or with a reason to stop. -/
inductive PassOutcome (σ : Type) where
  | committed (next : Document σ)
  | stopped (reason : StopReason)

/-- Applies the batch, renders it and reads the text again. A fault is an ordinary result here: the
batch is given up. -/
def tryBatch (language : Language σ) (t : Tree) (sets : List EditSet) (mode : RenderMode) :
    Run (Except Fault (Document σ)) := do
  match t.applyEditSets sets with
  | .error f => return .error f
  | .ok edited =>
    match language.render edited mode with
    | .error f => return .error f
    | .ok text =>
      try return .ok (← language.read text t.filePath)
      catch f => return .error f

/-- Runs a pass to its end. -/
def runPass [Throwable τ] (shop : Workshop σ τ) (d : Document σ) (budget : Budget) (requested : RenderMode)
    (st : PassState) : Run (PassState × PassOutcome σ) := do
  let st ← st.rounds shop d budget st.pass.violations
  let selection ← Run.lift (d.tree.selectCompatible st.pass.produced)
  let pass := { st.pass with selected := selection.taken, conflicts := selection.waiting }
  if selection.taken.isEmpty then return ({ st with pass }, .stopped .fixedPoint)
  else
    let decision := RenderDecision.of requested selection.taken
    let pass := { pass with renderMode := some decision.mode }
    let file := d.tree.filePath
    match ← tryBatch shop.language d.tree selection.taken decision.mode with
    | .error f =>
      Run.log (engineSays .warn (file ++ ": pass " ++ toString pass.number ++ " discarded: " ++ f.message)
        (some (.record [("code", .text f.codeText)])))
      return ({ st with pass, statistics := st.statistics.addFailure ⟨file, pass.number, f.codeText, f.message⟩ },
        .stopped .passFailure)
    | .ok next =>
      let mut statistics := st.statistics
      if !decision.fallbackRuleIds.isEmpty then
        statistics := statistics.addFallback ⟨file, pass.number, decision.fallbackRuleIds⟩
        Run.log (engineSays .warn (file ++ ": pass " ++ toString pass.number
          ++ " rendered in full mode; targeted render not supported by "
          ++ String.intercalate ", " decision.fallbackRuleIds))
      statistics := selection.taken.foldl (fun s set => s.addApplied set.violation) statistics
      return ({ st with pass := { pass with committed := true }, statistics }, .committed next)

end LintRepair
