import LintRepair.Log
import LintRepair.Repair.Batch

/-!
# Rules and processors

A rule check finds the places where a file breaks a rule; a processor turns one such place into edits.
Both are kept in registers under the id of their rule. A register takes one entry an id and, once
frozen, no more.
-/
namespace LintRepair

/-- Where a check points. -/
inductive Site where
  | nowhere
  /-- A node of some other syntax tree. -/
  | elsewhere
  | at (place : Place)
deriving DecidableEq, Repr, Inhabited

/-- A report of a check, before it is tied to a node of the tree. -/
structure Hit where
  site : Site
  message : String
deriving DecidableEq, Repr, Inhabited

/-- A rule over parsed files of type `σ`. -/
structure RuleCheck (σ : Type) where
  ruleId : String
  name : String
  description : String := ""
  severity : Severity := .warning
  check : σ → Except Fault (List Hit)

/-- Builds templates from code snippets. -/
structure Fragments where
  statement : Text → Except Fault Template
  expression : Text → Except Fault Template
  clause : Text → Except Fault Template
  binaryOperator : Text → Except Fault Template

instance : Inhabited Fragments :=
  let nothing (_ : Text) : Except Fault Template := .error (.other "no fragments")
  ⟨⟨nothing, nothing, nothing, nothing⟩⟩

/-- What a processor sees. A tree that was not parsed has no parsed file. -/
structure RepairContext (σ : Type) where
  tree : Tree
  parsed : Option σ
  node : Handle
  violation : Violation
  fragments : Fragments

inductive Outcome where
  | applied (edits : List Edit)
  | declined (reason : String)
  | crashed (cause : String)
deriving Repr, Inhabited

/-- The repair of one rule's violations. It returns edits and applies none; it may throw values of type `τ`. -/
structure Processor (σ : Type) (τ : Type := Thrown) where
  ruleId : String
  name : String
  description : String := ""
  /-- The edits may be rendered with untouched bytes kept. -/
  targeted : Bool := true
  apply : RepairContext σ → Except τ Outcome

/-- Entries under ids, in the order in which they came. -/
structure Register (α : Type) where
  entries : List (String × α) := []
  frozen : Bool := false

namespace Register

variable {α : Type}

instance : Inhabited (Register α) := ⟨{}⟩

def get? (r : Register α) (id : String) : Option α := r.entries.lookup id

def has (r : Register α) (id : String) : Bool := (r.get? id).isSome

/-- Adds an entry; the two faults are those of a frozen register and of an id that is taken. -/
def insert (r : Register α) (id : String) (entry : α) (whenFrozen whenTaken : String → Fault) :
    Except Fault (Register α) :=
  if r.frozen then .error (whenFrozen id)
  else if r.has id then .error (whenTaken id)
  else .ok { r with entries := r.entries ++ [(id, entry)] }

def freeze (r : Register α) : Register α := { r with frozen := true }

/-- The ids in order. -/
def ids (r : Register α) : List String := (r.entries.map (·.1)).mergeSort unitsLe

/-- The entries in the order of their ids. -/
def all (r : Register α) : List α := r.ids.filterMap r.get?

/-- A register that holds the given entries; of two with one id the first is found. -/
def ofList (entries : List (String × α)) : Register α := { entries }

end Register

abbrev Catalog (σ : Type) := Register (RuleCheck σ)

abbrev Processors (σ : Type) (τ : Type := Thrown) := Register (Processor σ τ)

def Catalog.register {σ : Type} (c : Catalog σ) (check : RuleCheck σ) : Except Fault (Catalog σ) :=
  c.insert check.ruleId check .frozenCatalog .duplicateRule

def Processors.register {σ τ : Type} (ps : Processors σ τ) (p : Processor σ τ) :
    Except Fault (Processors σ τ) :=
  ps.insert p.ruleId p .frozenProcessors .duplicateProcessor

/-- A rule as it is listed, with what its processor can do. -/
structure RuleDescription where
  ruleId : String
  name : String
  description : String
  severity : String
  repairable : Bool
  targetedRender : Bool
deriving DecidableEq, Repr, Inhabited

def describeRules {σ τ : Type} (catalog : Catalog σ) (processors : Processors σ τ) : List RuleDescription :=
  catalog.all.map fun check =>
    let processor := processors.get? check.ruleId
    { ruleId := check.ruleId
      name := check.name
      description := check.description
      severity := check.severity.label
      repairable := processor.isSome
      targetedRender := processor.any (·.targeted) }

end LintRepair
