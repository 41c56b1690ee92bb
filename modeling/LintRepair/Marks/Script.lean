import LintRepair.Marks.Basic
import LintRepair.Repair.Engine

/-!
# Scripted collaborators

Checks and processors over Marks whose behaviour is written down as data. They drive the repair loop
through every kind of outcome, faults included.
-/
namespace LintRepair.Marks

/-- A parsed Marks text. -/
structure MarksFile where
  source : Text
  root : Template
deriving Repr, Inhabited

/-- Marks as a language of the repair loop. -/
def language : Language MarksFile where
  parse text file := do
    let root ← parse text file
    return (root, ⟨text, root⟩)
  render tree mode := return match mode with
    | .targeted => tree.render
    | .full => relayout tree.render
  fragments _ := ⟨fragment, fragment, fragment, fragment⟩

/-- A check that reports nodes by kind and text. -/
structure ScriptedCheck where
  id : String
  name : String
  description : String := ""
  severity : Severity := .warning
  kinds : Option (List String) := none
  containing : Option Text := none
  message : Option String := none
  throwOn : Option Text := none
  fileHits : List String := []
  orphanHits : List String := []
  reversed : Bool := false
  /-- Report a foreign node below the matching one. -/
  ghost : Bool := false
  repeated : Nat := 1
deriving Repr, Inhabited

namespace ScriptedCheck

def wording (c : ScriptedCheck) : String := c.message.getD c.name

/-- The hits of one matching node; from the second on they are numbered. -/
def hitsAt (c : ScriptedCheck) (node : MarkedNode) : List Hit :=
  let place := if c.ghost then node.childCount :: node.place else node.place
  (List.range c.repeated).map fun k =>
    ⟨.at place, if k = 0 then c.wording else c.wording ++ " (" ++ toString (k + 1) ++ ")"⟩

def matchesNode (c : ScriptedCheck) (file : MarksFile) (node : MarkedNode) : Bool :=
  c.kinds.all (·.contains node.kind)
    && c.containing.all fun needle => needle.occursIn (file.source.slice node.span.start node.span.stop)

def run (c : ScriptedCheck) (file : MarksFile) : Except Fault (List Hit) :=
  if c.throwOn.any (·.occursIn file.source) then .error (.other ("check " ++ c.id ++ " exploded"))
  else
    let order := if c.reversed then (nodes file.root).reverse else nodes file.root
    .ok (c.fileHits.map (⟨.nowhere, ·⟩) ++ c.orphanHits.map (⟨.elsewhere, ·⟩)
      ++ (order.filter (c.matchesNode file)).flatMap c.hitsAt)

def toCheck (c : ScriptedCheck) : RuleCheck MarksFile :=
  ⟨c.id, c.name, c.description, c.severity, c.run⟩

end ScriptedCheck

/-- The node that a scripted edit is about, seen from the flagged one. -/
inductive Target where
  | flagged
  | handle (h : Handle)
  | root
  | parent
  | child (i : Int)
  | sibling (offset : Int)
deriving DecidableEq, Repr, Inhabited

/-- The handle of no node. -/
def missing : Handle := -1

/-- The member of a list at an index that may lie outside. -/
def member (hs : List Handle) (i : Int) : Handle := if i < 0 then missing else hs.getD i.toNat missing

def Target.resolve (t : Tree) (flagged : Handle) : Target → Handle
  | .flagged => flagged
  | .handle h => h
  | .root => Tree.root
  | .parent => ((t.parent flagged).toOption.join).getD missing
  | .child i => member ((t.children flagged).toOption.getD []) i
  | .sibling offset =>
    match (t.parent flagged).toOption.join with
    | none => missing
    | some p =>
      let siblings := (t.children p).toOption.getD []
      match siblings.findIdx? (· = flagged) with
      | none => missing
      | some i => member siblings (i + offset)

structure ScriptedEdit where
  type : String
  target : Target
  code : Text
  separator : Option Text
deriving Repr, Inhabited

inductive ScriptedAction where
  | decline (reason : String)
  | crash (cause : String)
  /-- Says that it crashed, but the cause is nothing that can be told. -/
  | crashWordless
  | throw (thrown : Thrown)
  | edit (edits : List ScriptedEdit)
deriving Repr, Inhabited

structure ScriptEntry where
  /-- The entry is for nodes whose text contains this. -/
  condition : Option Text
  action : ScriptedAction
deriving Repr, Inhabited

structure ScriptedProcessor where
  ruleId : String
  name : String := ""
  description : String := ""
  targeted : Bool := true
  script : List ScriptEntry := []
deriving Repr, Inhabited

namespace ScriptedProcessor

def buildEdit (t : Tree) (flagged : Handle) (text : Text) (e : ScriptedEdit) : Except Thrown Edit := do
  let h := e.target.resolve t flagged
  if e.type = "delete" then return .delete h
  match fragment (Text.replaceAll (Text.ofString "$text") text e.code) with
  | .error f => throw (.fault f)
  | .ok subtree =>
    if e.type = "replace" then return .replace h subtree
    else if e.type = "insert_before" then return .insertBefore h subtree e.separator
    else return .insertAfter h subtree e.separator

/-- What cannot be told of a crash ends a run as an error without a wording does: when it is recorded. -/
def run (p : ScriptedProcessor) (context : RepairContext MarksFile) : Except AnyThrown Outcome := do
  match context.tree.textOf context.node with
  | .error f => throw (.worded (.fault f))
  | .ok text =>
    match p.script.find? fun e => e.condition.all (·.occursIn text) with
    | none => return .declined "no script entry matches"
    | some entry =>
      match entry.action with
      | .decline reason => return .declined reason
      | .crash cause => return .crashed cause
      | .crashWordless => throw (.wordless .wordless)
      | .throw thrown => throw (.worded thrown)
      | .edit edits =>
        return .applied (← (edits.mapM (buildEdit context.tree context.node text)).mapError .worded)

def toProcessor (p : ScriptedProcessor) : Processor MarksFile AnyThrown :=
  ⟨p.ruleId, p.name, p.description, p.targeted, p.run⟩

end ScriptedProcessor

/-- An engine over scripted collaborators. -/
def engine (checks : List ScriptedCheck) (processors : List ScriptedProcessor) :
    Except Fault (Engine MarksFile AnyThrown) := do
  let catalog ← checks.foldlM (fun c check => Catalog.register c check.toCheck) {}
  let register ← processors.foldlM (fun ps p => Processors.register ps p.toProcessor) {}
  return ⟨language, Catalog.analyzer catalog, register⟩

end LintRepair.Marks
