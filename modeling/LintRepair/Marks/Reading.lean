import LintRepair.Marks.Script
import LintRepair.Value.Fields
import LintRepair.Value.Literal

/-!
# Scripts written as values

Templates, scripted checks and scripted processors as they stand in documents. What a document leaves out
has its default.
-/
namespace LintRepair

open Value

def Span.ofValue (v : Value) : Span := ⟨v.natAt "start", v.natAt "end"⟩

mutual
/-- A template as a record of its kind, its parts and perhaps its span. -/
def Template.ofValue : Value → Template
  | .record fs =>
    let v := Value.record fs
    { kind := v.textAt "kind", span := (v.given? "span").map Span.ofValue, body := Pieces.ofFields fs }
  | _ => { kind := "", span := none, body := .nil }

/-- The pieces under the key for parts. -/
def Pieces.ofFields : List (String × Value) → Pieces
  | [] => .nil
  | (key, .list vs) :: rest => if key = "parts" then Pieces.ofValues vs else Pieces.ofFields rest
  | _ :: rest => Pieces.ofFields rest

def Pieces.ofValues : List Value → Pieces
  | [] => .nil
  | .text s :: rest => .text (Text.ofString s) (Pieces.ofValues rest)
  | v :: rest => (Template.ofValue v).consPieces (Pieces.ofValues rest)
end

/-- The separator of an insertion, if the document names one. -/
def Edit.separatorIn (v : Value) : Option Text := (v.get "separator").text?.map Text.ofString

namespace Marks

def ScriptedCheck.ofValue (v : Value) : ScriptedCheck :=
  let id := v.textAt "id"
  { id, name := v.textAt "name" id, description := v.textAt "description"
    severity := if v.textAt "severity" = "ERROR" then .error else .warning
    kinds := (v.given? "kinds").map words
    containing := (v.get "contains").text?.map Text.ofString
    message := (v.get "message").text?
    throwOn := (v.get "throwOn").text?.map Text.ofString
    fileHits := v.wordsAt "fileHits"
    orphanHits := v.wordsAt "orphanHits"
    reversed := v.flagAt "reverse"
    ghost := v.flagAt "ghost"
    repeated := v.natAt "repeat" 1 }

def Target.ofText (s : String) : Target :=
  let offset (digits : String) : Int := ((Number.ofText? digits).bind Number.toInt?).getD (-1)
  match s.splitOn ":" with
  | ["root"] => .root
  | ["parent"] => .parent
  | ["child", i] => .child (offset i)
  | ["sibling", i] => .sibling (offset i)
  | _ => .handle (-1)

def Target.ofValue : Value → Target
  | .null => .flagged
  | .text s => .ofText s
  | v => .handle (v.int?.getD (-1))

def ScriptedEdit.ofValue (v : Value) : ScriptedEdit :=
  { type := v.textAt "type", target := .ofValue (v.get "at"), code := Text.ofString (v.textAt "code")
    separator := Edit.separatorIn v }

/-- A record hides the way in which it would be turned into a text behind a field of that name. -/
def hidesText (v : Value) : Bool := (v.field? "toString").isSome

/-- The action of a script entry; of several the first that the entry names. -/
def ScriptedAction.ofValue (v : Value) : ScriptedAction :=
  if (v.get "declined").text?.isNone && hidesText (v.get "crashed") then .crashWordless
  else match (v.get "declined").text?, (v.get "crashed").text?, (v.get "throwError").text?,
      v.field? "throwValue" with
  | some reason, _, _, _ => .decline reason
  | _, some cause, _, _ => .crash cause
  | _, _, some message, _ => .throw (.fault (.other message))
  | _, _, _, some (.text s) => .throw (.text s)
  | _, _, _, some _ => .throw .unnamed
  | _, _, _, none => .edit ((v.itemsAt "edits").map ScriptedEdit.ofValue)

def ScriptedProcessor.ofValue (v : Value) : ScriptedProcessor :=
  let ruleId := v.textAt "ruleId"
  { ruleId, name := v.textAt "name" ruleId, description := v.textAt "description"
    targeted := v.flagAt "targeted" true
    script := (v.itemsAt "script").map fun e =>
      ⟨(e.get "when").text?.map Text.ofString, ScriptedAction.ofValue e⟩ }

end Marks

/-- A cap on repairs or passes; what is not a number does not cap. -/
def Cap.ofValue (default : Cap) : Option Value → Cap
  | none => default
  | some v => match v.nat? with
    | some n => .atMost n
    | none => .unbounded

/-- The options of a repair; a deadline counts as past when it comes before `now`. -/
def RepairOptions.ofValue (now : Int) (v : Value) : RepairOptions :=
  let budget := v.get "budget"
  { mode := ((v.get "mode").text?.bind RenderMode.ofLabel?).getD .targeted
    budget := {
      repairsPerRule := Cap.ofValue .unbounded (budget.field? "maxRepairsPerRule")
      passes := Cap.ofValue (.atMost 10) (budget.field? "maxPasses") }
    abortAfter := (v.get "abortAfter").nat?
    expired := (v.get "deadline").int?.any (· ≤ now) }

end LintRepair
