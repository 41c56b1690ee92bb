import LintRepair.Value.Basic

/-!
# Looking into values

A question about a value that it cannot answer has no answer: a field that is not there reads as `null`,
a value that is not a list has no items.
-/
namespace LintRepair

instance : Coe String Value := ⟨.text⟩
instance : Coe Bool Value := ⟨.bool⟩
instance : Coe Nat Value := ⟨.nat⟩
instance : Coe Int Value := ⟨.int⟩
instance : Coe Number Value := ⟨.number⟩
instance : Coe (List Value) Value := ⟨.list⟩
instance : Coe (Option Value) Value := ⟨fun v => v.getD .null⟩

namespace Value

def text? : Value → Option String
  | .text s => some s
  | _ => none

def number? : Value → Option Number
  | .number n => some n
  | _ => none

def int? (v : Value) : Option Int := v.number?.bind Number.toInt?

def nat? (v : Value) : Option Nat := v.int?.map Int.toNat

def items : Value → List Value
  | .list vs => vs
  | _ => []

def fields : Value → List (String × Value)
  | .record fs => fs
  | _ => []

/-- The items that are texts. -/
def words (v : Value) : List String := v.items.filterMap text?

/-- The field under a key. -/
def get (v : Value) (key : String) : Value := (v.field? key).getD .null

/-- The field under a key unless it is `null`. -/
def given? (v : Value) (key : String) : Option Value :=
  match v.field? key with
  | some .null => none
  | other => other

def textAt (v : Value) (key : String) (default : String := "") : String := (v.get key).text?.getD default

def natAt (v : Value) (key : String) (default : Nat := 0) : Nat := (v.get key).nat?.getD default

def flagAt (v : Value) (key : String) (default : Bool := false) : Bool :=
  match v.get key with
  | .bool b => b
  | _ => default

def itemsAt (v : Value) (key : String) : List Value := (v.get key).items

def wordsAt (v : Value) (key : String) : List String := (v.get key).words

end Value
end LintRepair
