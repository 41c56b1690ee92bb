import LintRepair.Value.Number

/-!
# Values

Documents without a fixed shape: what configuration files hold, what errors carry as details, and
what reports are printed from.
-/
namespace LintRepair

inductive Value where
  | null
  | bool (b : Bool)
  | number (n : Number)
  | text (s : String)
  | list (items : List Value)
  | record (fields : List (String × Value))
  /-- An object of a kind of its own, as it is shown. -/
  | special (kind : String) (shown : Value)
deriving Inhabited, Repr

namespace Value

def nat (n : Nat) : Value := .number (.ofNat n)

def int (n : Int) : Value := .number (.ofInt n)

def texts (ss : List String) : Value := .list (ss.map .text)

/-- The record of those fields that are present. -/
def recordOf (fields : List (String × Option Value)) : Value :=
  .record (fields.filterMap fun (key, value) => value.map (key, ·))

def field? (key : String) : Value → Option Value
  | .record fields => (fields.find? (·.1 = key)).map (·.2)
  | _ => none

/-- The name of a value's kind, as validation messages spell it. -/
def kindName : Value → String
  | .null => "null"
  | .bool _ => "boolean"
  | .number .nan => "NaN"
  | .number _ => "number"
  | .text _ => "string"
  | .list _ => "array"
  | .record _ => "object"
  | .special kind _ => kind

/-- A key that spells a list index stands for that index. -/
def indexKey? (key : String) : Option Nat :=
  match key.toList with
  | [] => none
  | ['0'] => some 0
  | '0' :: _ => none
  | cs =>
    if cs.all Char.isDigit then
      let n := cs.foldl (fun n c => 10 * n + (c.toNat - '0'.toNat)) 0
      if n < Number.twoTo 32 - 1 then some n else none
    else none

/-- Fields in the order in which they are listed: index keys ascending, then the others as given. -/
def inKeyOrder {α : Type} (fields : List (String × α)) : List (String × α) :=
  let indexed := fields.filterMap fun f => (indexKey? f.1).map (·, f)
  (indexed.mergeSort (fun a b => a.1 ≤ b.1)).map (·.2) ++ fields.filter (fun f => (indexKey? f.1).isNone)

end Value
end LintRepair
