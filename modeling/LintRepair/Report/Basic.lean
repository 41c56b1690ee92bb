import LintRepair.Repair.Pass

/-!
# What reports are made of

The results of a project run in the form that the printed reports need, and statistics as values.
-/
namespace LintRepair

/-- A file that could not be processed, and why. -/
structure FileNote where
  file : String
  message : String
deriving DecidableEq, Repr, Inhabited

structure FileReport where
  filePath : String
  changed : Bool
  written : Bool
  stopReason : String
  passes : Nat
  repairsApplied : Nat
  remaining : List Violation
deriving DecidableEq, Repr, Inhabited

/-- A repair of a whole project. -/
structure RepairReport where
  root : String
  files : List FileReport
  parseErrors : List FileNote
  failures : List FileNote
  statistics : Statistics
  filesChanged : Nat
  durationMs : Number
deriving Repr, Inhabited

/-- What stands under a key of a record of counts: a number, or words where a count was added to something
that is no number. -/
inductive Amount (α : Type) where
  | number (n : α)
  | words (s : String)
deriving DecidableEq, Repr, Inhabited

namespace Amount

variable {α β : Type}

def map (f : α → β) : Amount α → Amount β
  | number n => number (f n)
  | words s => words s

/-- The methods that a record inherits, by name. -/
def methods : List String :=
  ["hasOwnProperty", "isPrototypeOf", "propertyIsEnumerable", "toLocaleString", "toString", "valueOf",
    "__defineGetter__", "__defineSetter__", "__lookupGetter__", "__lookupSetter__"]

/-- The name under which a record answers with the record that it inherits from. Nothing but a record can
be entered under it. -/
def lineage : String := "__proto__"

/-- What a record answers to a name that it inherits, put into words. -/
def inherited? (key : String) : Option String :=
  if key = lineage then some "[object Object]"
  else if key = "constructor" then some "function Object() \x7b [native code] \x7d"
  else if key ∈ methods then some ("function " ++ key ++ "() \x7b [native code] \x7d")
  else none

/-- What a record answers to a key: its own entry before anything inherited. -/
def at? (entries : List (String × Amount α)) (key : String) : Option (Amount α) :=
  (entries.lookup key).or ((inherited? key).map words)

end Amount

/-- The violations of one file, counted by rule. -/
structure MinedFile where
  file : String
  counts : List (String × Amount Number)
deriving DecidableEq, Repr, Inhabited

instance : Coe (List (String × Number)) (List (String × Amount Number)) :=
  ⟨List.map fun c => (c.1, .number c.2)⟩

/-- A count of violations over a whole project. -/
structure MineReport where
  root : String
  ruleIds : List String
  files : List MinedFile
  totals : List (String × Amount Number)
  filesScanned : Nat
  parseErrors : List FileNote
  failures : List FileNote
deriving DecidableEq, Repr, Inhabited

namespace FileNote

def toValue (n : FileNote) : Value := .record [("file", .text n.file), ("message", .text n.message)]

end FileNote

namespace RuleCounts

def fields (c : RuleCounts) : List (String × Value) :=
  [("violationsFound", .nat c.found), ("repairsApplied", .nat c.applied),
    ("repairsDeclined", .nat c.declined), ("crashes", .nat c.crashes), ("remaining", .nat c.remaining)]

end RuleCounts

namespace RuleStatistics

def toValue (r : RuleStatistics) : Value :=
  .record (("ruleId", .text r.ruleId) :: r.counts.fields ++
    [("appliedLocations", .list (r.appliedPlaces.map fun p =>
      .record [("file", .text p.file), ("line", .nat p.line), ("column", .nat p.column)]))])

end RuleStatistics

def CrashRecord.toValue (c : CrashRecord) : Value :=
  .record [("ruleId", .text c.ruleId), ("file", .text c.file), ("line", .nat c.line),
    ("column", .nat c.column), ("nodeKind", .text c.nodeKind), ("pass", .nat c.pass),
    ("message", .text c.message)]

def RenderFallback.toValue (f : RenderFallback) : Value :=
  .record [("file", .text f.file), ("pass", .nat f.pass), ("ruleIds", .texts f.ruleIds)]

def PassFailure.toValue (f : PassFailure) : Value :=
  .record [("file", .text f.file), ("pass", .nat f.pass), ("code", .text f.code),
    ("message", .text f.message)]

/-- The order in which the fields of recorded events are listed. -/
inductive FieldOrder where
  | asRecorded
  | byName
deriving DecidableEq, Repr, Inhabited

def FieldOrder.arrange (order : FieldOrder) : Value → Value
  | .record fields => match order with
    | .asRecorded => .record fields
    | .byName => .record (fields.mergeSort fun a b => unitsLe a.1 b.1)
  | v => v

namespace Statistics

def toValue (s : Statistics) (order : FieldOrder := .asRecorded) : Value :=
  .record [("rules", .list (s.sortedRules.map (·.toValue))), ("totals", .record s.totals.fields),
    ("crashes", .list (s.crashes.map fun c => order.arrange c.toValue)),
    ("renderFallbacks", .list (s.fallbacks.map fun f => order.arrange f.toValue)),
    ("passFailures", .list (s.failures.map fun f => order.arrange f.toValue))]

end Statistics

namespace Amount

def toValue : Amount Number → Value
  | number n => .number n
  | words s => .text s

def text : Amount Number → String
  | number n => n.text
  | words s => s

/-- The entries of a record as a value. -/
def recordOf (entries : List (String × Amount Number)) : Value :=
  .record (entries.map fun (id, amount) => (id, amount.toValue))

end Amount

namespace MinedFile

def toValue (m : MinedFile) : Value :=
  .record [("file", .text m.file), ("counts", Amount.recordOf m.counts)]

end MinedFile
end LintRepair
