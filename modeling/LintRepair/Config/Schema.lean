import LintRepair.Config.Basic
import LintRepair.Fault

/-!
# Reading a configuration

A document is checked field by field. Every misfit is an issue with the path to it; all of them are reported,
in the order of the fields.
-/
namespace LintRepair

inductive Misfit where
  /-- A value of another kind. -/
  | kind (expected received : String)
  | tooSmall (least : Nat)
  | tooBig (greatest : Nat) (expected : String)
  | tooSmallWhole
  | noOption (options : List String)
deriving DecidableEq, Repr, Inhabited

namespace Misfit

/-- Whole numbers beyond this bound are not told apart. -/
def wholeBound : Nat := Number.twoTo 53 - 1

def message : Misfit → String
  | kind expected received => "Invalid input: expected " ++ expected ++ ", received " ++ received
  | tooSmall least => "Too small: expected number to be >=" ++ toString least
  | tooBig greatest expected => "Too big: expected " ++ expected ++ " to be <=" ++ toString greatest
  | tooSmallWhole => "Too small: expected int to be >=-" ++ toString wholeBound
  | noOption options =>
    "Invalid option: expected one of " ++ String.intercalate "|" (options.map fun s => "\"" ++ s ++ "\"")

end Misfit

structure Issue where
  path : List String
  misfit : Misfit
deriving DecidableEq, Repr, Inhabited

def Issue.message (i : Issue) : String :=
  let path := String.intercalate "." i.path
  if path.isEmpty then i.misfit.message else path ++ ": " ++ i.misfit.message

/-- A value read from a document, with what was wrong; the value counts only if nothing was. -/
structure Reading (α : Type) where
  value : α
  issues : List Issue := []
deriving Repr, Inhabited

namespace Reading

variable {α β : Type}

def misfit (value : α) (m : Misfit) : Reading α := ⟨value, [⟨[], m⟩]⟩

def map (f : α → β) (r : Reading α) : Reading β := ⟨f r.value, r.issues⟩

/-- Below a key. -/
def under (key : String) (r : Reading α) : Reading α :=
  { r with issues := r.issues.map fun i => { i with path := key :: i.path } }

/-- A field of a record; one that is left out has a default. -/
def field (v : Value) (key : String) (default : α) (read : Value → Reading α) : Reading α :=
  match v.field? key with
  | none => ⟨default, []⟩
  | some inner => (read inner).under key

def text (v : Value) : Reading String :=
  match v with
  | .text s => ⟨s, []⟩
  | v => misfit "" (.kind "string" v.kindName)

def texts (v : Value) : Reading (List String) :=
  match v with
  | .list vs =>
    let rs := vs.zipIdx.map fun (v, i) => (text v).under (toString i)
    ⟨rs.map (·.value), rs.flatMap (·.issues)⟩
  | v => misfit [] (.kind "array" v.kindName)

/-- Bounds on whole numbers. -/
structure Bounds where
  least : Nat := 1
  greatest : Option Nat := none

def Bounds.misfits (b : Bounds) (n : Int) : List Misfit :=
  (if (Misfit.wholeBound : Int) < n then [.tooBig Misfit.wholeBound "int"]
    else if n < -(Misfit.wholeBound : Int) then [.tooSmallWhole] else [])
  ++ (if n < b.least then [.tooSmall b.least] else [])
  ++ match b.greatest with
    | some most => if (most : Int) < n then [.tooBig most "number"] else []
    | none => []

def whole (b : Bounds) (v : Value) : Reading Nat :=
  match v with
  | .number n =>
    match n with
    | .decimal _ _ =>
      match n.toInt? with
      | some i => ⟨i.toNat, (b.misfits i).map fun m => ⟨[], m⟩⟩
      | none => misfit 0 (.kind "int" "number")
    | _ => misfit 0 (.kind "number" v.kindName)
  | v => misfit 0 (.kind "number" v.kindName)

def mode (v : Value) : Reading RenderMode :=
  let none_ : Reading RenderMode := misfit .targeted (.noOption [RenderMode.full.label, RenderMode.targeted.label])
  match v with
  | .text s => match RenderMode.ofLabel? s with
    | some m => ⟨m, []⟩
    | none => none_
  | _ => none_

/-- A record; nothing stands for an empty one. -/
def section_ (v : Value) (empty : α) (read : Value → Reading α) : Reading α :=
  match v with
  | .null => read (.record [])
  | .record _ | .special .. => read v
  | v => misfit empty (.kind "object" v.kindName)

end Reading

namespace Config

open Reading

def readRender (v : Value) : Reading RenderConfig :=
  let mode := field v "mode" .targeted Reading.mode
  let size := field v "indent_size" 4 (whole { greatest := some 16 })
  ⟨⟨mode.value, size.value⟩, mode.issues ++ size.issues⟩

def readBudget (v : Value) : Reading BudgetConfig :=
  let repairs := field v "max_repairs_per_rule" none fun v =>
    match v with
    | .null => ⟨none, []⟩
    | v => (whole {} v).map some
  let passes := field v "max_passes" 10 (whole {})
  ⟨⟨repairs.value, passes.value⟩, repairs.issues ++ passes.issues⟩

def readFiles (v : Value) : Reading FilePatterns :=
  let standard : FilePatterns := {}
  let includes := field v "include" standard.includes texts
  let excludes := field v "exclude" standard.excludes texts
  ⟨⟨includes.value, excludes.value⟩, includes.issues ++ excludes.issues⟩

def readFields (v : Value) : Reading Config :=
  let version := field v "version" "1.0" text
  let rules := field v "rules" [] texts
  let render := field v "render" {} fun v => section_ v {} readRender
  let budget := field v "budget" {} fun v => section_ v {} readBudget
  let files := field v "files" {} fun v => section_ v {} readFiles
  let concurrency := field v "concurrency" none fun v => (whole { greatest := some 64 } v).map some
  let timeout := field v "timeout_ms" none fun v => (whole {} v).map some
  let output := field v "stats_output_file" none fun v => (text v).map some
  { value := ⟨version.value, rules.value, render.value, budget.value, files.value, concurrency.value,
      timeout.value, output.value⟩
    issues := version.issues ++ rules.issues ++ render.issues ++ budget.issues ++ files.issues
      ++ concurrency.issues ++ timeout.issues ++ output.issues }

def read (v : Value) : Reading Config :=
  match v with
  | .record _ | .special .. => readFields v
  | v => misfit {} (.kind "object" v.kindName)

/-- The configuration that a document describes, or the wording of all its issues. -/
def ofValue (v : Value) : Except String Config :=
  let r := read v
  if r.issues.isEmpty then .ok r.value
  else .error (String.intercalate "; " (r.issues.map Issue.message))

/-- Completes a configuration with the defaults. -/
def merge (v : Value) : Except Fault Config :=
  match ofValue v with
  | .ok c => .ok c
  | .error m => .error (.schema m)

end Config
end LintRepair
