import LintRepair.Rule

/-!
# What a run leaves behind

Besides its result a run speaks to the log, takes trees from the parser and gives them back, and looks
at its abort signal. The journal records all three, also for a run that fails.
-/
namespace LintRepair

structure Journal where
  entries : List LogEntry := []
  /-- The number of files parsed so far; each parsed file has its number. -/
  parsed : Nat := 0
  /-- The numbers of the files given back. -/
  released : List Nat := []
  /-- How often the abort signal was looked at. -/
  signalReads : Nat := 0
deriving Repr, Inhabited

/-- The parsed files that were never given back. -/
def Journal.live (j : Journal) : Nat :=
  ((List.range j.parsed).filter fun n => !j.released.contains n).length

/-- A computation that keeps a journal and may fail. -/
abbrev Run := ExceptT Fault (StateM Journal)

namespace Run

def log (entry : LogEntry) : Run Unit := modify fun j => { j with entries := j.entries ++ [entry] }

def release (number : Nat) : Run Unit := modify fun j => { j with released := j.released ++ [number] }

/-- The number of the next parsed file. -/
def acquire : Run Nat := modifyGet fun j => (j.parsed, { j with parsed := j.parsed + 1 })

/-- Looks at a signal that is silent for the first `silentReads` looks and then set for good. -/
def readSignal (silentReads : Nat) : Run Bool :=
  modifyGet fun j => (decide (silentReads ≤ j.signalReads), { j with signalReads := j.signalReads + 1 })

def lift {α : Type} (r : Except Fault α) : Run α :=
  match r with
  | .ok a => pure a
  | .error f => throw f

end Run

/-- A parsed file, its tree and its number. -/
structure Document (σ : Type) where
  tree : Tree
  parsed : Option σ
  number : Nat
deriving Inhabited

/-- A language: how texts are read and written. -/
structure Language (σ : Type) where
  parse : Text → String → Except Fault (Template × σ)
  render : Tree → RenderMode → Except Fault Text
  fragments : String → Fragments

namespace Language

variable {σ : Type}

/-- Reads a text as a tree that belongs to the caller. -/
def read (language : Language σ) (text : Text) (file : String) : Run (Document σ) := do
  let (template, parsed) ← Run.lift (language.parse text file)
  return ⟨Tree.ofTemplate file text template, some parsed, ← Run.acquire⟩

end Language

/-- Runs the checks of rules on a file. -/
structure Analyzer (σ : Type) where
  supports : String → Bool
  runChecks : Document σ → List String → Run (List Violation)

namespace Catalog

variable {σ : Type}

/-- The order in which violations are listed: by place, then rule id, then node. -/
def violationLe (a b : Violation) : Bool :=
  if a.location.start ≠ b.location.start then a.location.start < b.location.start
  else if a.ruleId ≠ b.ruleId then unitsLe a.ruleId b.ruleId
  else a.node ≤ b.node

def analyzerSays (message hitMessage : String) : LogEntry :=
  ⟨.debug, "analyzer", message, some (Value.json (.record [("message", .text hitMessage)]))⟩

/-- Adds the violation of one hit, unless it points nowhere or its rule already flags the node. -/
def addHit (d : Document σ) (check : RuleCheck σ) (found : List Violation) (hit : Hit) :
    Run (List Violation) := do
  match hit.site with
  | .nowhere =>
    Run.log (analyzerSays ("Dropping '" ++ check.ruleId ++ "' report without a primary location") hit.message)
    return found
  | site =>
    let handle := match site with
      | .at place => d.tree.handleOf? place
      | _ => none
    match handle with
    | none =>
      Run.log (analyzerSays ("Dropping '" ++ check.ruleId ++ "' report on a node outside the tree") hit.message)
      return found
    | some h =>
      if found.any fun v => v.ruleId = check.ruleId && v.node = h then return found
      else
        let nodeKind ← Run.lift (d.tree.kind h)
        let location ← Run.lift (d.tree.location h)
        return found ++ [⟨check.ruleId, d.tree.filePath, h, nodeKind, hit.message, check.severity, location⟩]

/-- The violations of all given rules in their listed order; unknown rules have none. -/
def runChecks (catalog : Catalog σ) (d : Document σ) (ruleIds : List String) : Run (List Violation) := do
  match d.parsed with
  | none => return []
  | some parsed =>
    let found ← ruleIds.foldlM (fun found id => do
      match catalog.get? id with
      | none => return found
      | some check => (← Run.lift (check.check parsed)).foldlM (addHit d check) found) []
    return found.mergeSort violationLe

def analyzer (catalog : Catalog σ) : Analyzer σ := ⟨catalog.has, catalog.runChecks⟩

end Catalog
end LintRepair
