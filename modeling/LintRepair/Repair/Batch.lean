import LintRepair.Tree.Edit
import LintRepair.Violation

/-!
# Edits and batches

Repairs describe what they want as edits; the edits of one repair form an edit set, and the chosen
sets of a pass are applied as one batch. A batch is ordered so that no edit removes a node that a
later edit needs: deeper nodes first, then from right to left, edits of one node as given.
-/
namespace LintRepair

/-- How a tree is turned back into text: laid out anew, or with every untouched byte kept. -/
inductive RenderMode where
  | full
  | targeted
deriving DecidableEq, Repr, Inhabited

namespace RenderMode

def label : RenderMode → String
  | full => "full"
  | targeted => "targeted"

def ofLabel? (s : String) : Option RenderMode :=
  if s = "full" then some full else if s = "targeted" then some targeted else none

theorem ofLabel?_label (m : RenderMode) : ofLabel? m.label = some m := by cases m <;> rfl

end RenderMode

inductive Edit where
  | replace (target : Handle) (replacement : Template)
  | insertBefore (anchor : Handle) (node : Template) (separator : Option Text)
  | insertAfter (anchor : Handle) (node : Template) (separator : Option Text)
  | delete (target : Handle)
deriving Repr, Inhabited

namespace Edit

/-- The node that an edit changes or stands next to. -/
def touched : Edit → Handle
  | replace h _ | insertBefore h _ _ | insertAfter h _ _ | delete h => h

def label : Edit → String
  | replace _ _ => "replace"
  | insertBefore _ _ _ => "insert_before"
  | insertAfter _ _ _ => "insert_after"
  | delete _ => "delete"

/-- The subtree that an edit brings in. -/
def subtree? : Edit → Option Template
  | replace _ s | insertBefore _ s _ | insertAfter _ s _ => some s
  | delete _ => none

def separator? : Edit → Option Text
  | insertBefore _ _ sep | insertAfter _ _ sep => sep
  | replace _ _ | delete _ => none

def apply (t : Tree) : Edit → Except Fault Tree
  | replace h s => return (← t.replace h s).1
  | insertBefore h s sep => return (← t.insertBefore h s sep).1
  | insertAfter h s sep => return (← t.insertAfter h s sep).1
  | delete h => t.delete h

end Edit

/-- The edits that repair one violation. -/
structure EditSet where
  violation : Violation
  edits : List Edit
  /-- The result may be rendered with untouched bytes kept. -/
  targeted : Bool
deriving Repr, Inhabited

namespace EditSet

def ruleId (s : EditSet) : String := s.violation.ruleId

/-- The flagged node and every node that an edit touches, each once. -/
def touched (s : EditSet) : List Handle :=
  s.edits.foldl (fun nodes e => if nodes.contains e.touched then nodes else nodes ++ [e.touched])
    [s.violation.node]

end EditSet

/-- The render mode of a batch and the rules that made it differ from the requested one. -/
structure RenderDecision where
  mode : RenderMode
  fallbackRuleIds : List String
deriving DecidableEq, Repr, Inhabited

/-- Every member of a list once, in the order of first occurrence. -/
def firstOccurrences {α : Type} [BEq α] (xs : List α) : List α :=
  xs.foldl (fun seen x => if seen.contains x then seen else seen ++ [x]) []

/-- A batch keeps untouched bytes when that is asked for and every one of its sets allows it. -/
def RenderDecision.of (requested : RenderMode) (sets : List EditSet) : RenderDecision :=
  match requested with
  | .full => ⟨.full, []⟩
  | .targeted =>
    match firstOccurrences ((sets.filter fun s => !s.targeted).map (·.ruleId)) with
    | [] => ⟨.targeted, []⟩
    | ids => ⟨.full, ids.mergeSort unitsLe⟩

/-- An edit with the place that decides its turn. -/
structure PlannedEdit where
  edit : Edit
  ruleId : String
  depth : Nat
  start : Int
  order : Nat
deriving Repr, Inhabited

namespace PlannedEdit

/-- Deeper nodes go first, then later ones, then the order of the list. -/
def le (a b : PlannedEdit) : Bool :=
  if a.depth ≠ b.depth then b.depth < a.depth
  else if a.start ≠ b.start then b.start < a.start
  else a.order ≤ b.order

end PlannedEdit

namespace Tree

/-- The edits of a batch in the order of their sets, each with its place in the tree. -/
def placeEdits (t : Tree) : Nat → List (String × Edit) → Except Fault (List PlannedEdit)
  | _, [] => return []
  | order, (ruleId, edit) :: rest => do
    let depth ← t.depth edit.touched
    let start := (← t.location edit.touched).start
    return ⟨edit, ruleId, depth, start, order⟩ :: (← t.placeEdits (order + 1) rest)

/-- The edits of a batch in the order in which they are applied. -/
def planEdits (t : Tree) (sets : List EditSet) : Except Fault (List PlannedEdit) :=
  return (← t.placeEdits 0 (sets.flatMap fun s => s.edits.map (s.ruleId, ·))).mergeSort PlannedEdit.le

/-- Applies planned edits one after the other. -/
def applyPlanned (t : Tree) : List PlannedEdit → Except Fault Tree
  | [] => return t
  | p :: rest =>
    match p.edit.apply t with
    | .ok next => next.applyPlanned rest
    | .error fault => throw (.batchFailed p.edit.label p.ruleId p.edit.touched fault.message)

/-- Applies the edits of all sets; either every edit lands or the batch fails as a whole. -/
def applyEditSets (t : Tree) (sets : List EditSet) : Except Fault Tree := do
  t.applyPlanned (← t.planEdits sets)

end Tree
end LintRepair
