import LintRepair.Text.Basic
import LintRepair.Value.Basic

/-!
# Values as JSON text

The layout of every machine-readable report: two spaces a level, one field or item a line, nothing
inside empty brackets.
-/
namespace LintRepair.Value

def hexDigit (n : Nat) : Char := Nat.digitChar n

/-- The escape of a character inside a JSON string, if it has one. -/
def escape? (c : Char) : Option (List Char) :=
  if c = '"' then some ['\\', '"']
  else if c = '\\' then some ['\\', '\\']
  else if c = '\n' then some ['\\', 'n']
  else if c = '\r' then some ['\\', 'r']
  else if c = '\t' then some ['\\', 't']
  else if c = '\x08' then some ['\\', 'b']
  else if c = '\x0c' then some ['\\', 'f']
  else if c.val < 0x20 then
    some ['\\', 'u', '0', '0', hexDigit (c.toNat / 16), hexDigit (c.toNat % 16)]
  else none

/-- A text between quotes. -/
def quoted (s : String) : String :=
  String.ofList ('"' :: s.toList.flatMap (fun c => (escape? c).getD [c]) ++ ['"'])

def indent (level : Nat) : String := String.ofList (List.replicate (2 * level) ' ')

/-- Lines between brackets, or the bare brackets when there are none. -/
def bracketed (opening closing : String) (level : Nat) (lines : List String) : String :=
  if lines.isEmpty then opening ++ closing
  else
    let body := String.intercalate (",\n") (lines.map (indent (level + 1) ++ ·))
    opening ++ "\n" ++ body ++ "\n" ++ indent level ++ closing

mutual
/-- The text of a value whose first line is already indented. -/
def layoutAt (level : Nat) : Value → String
  | .null => "null"
  | .bool b => if b then "true" else "false"
  | .number n => match n with
    | .decimal _ _ => n.text
    | _ => "null"
  | .text s => quoted s
  | .list items => bracketed "[" "]" level (layoutItems (level + 1) items)
  | .record fields =>
    bracketed "\x7b" "\x7d" level
      ((inKeyOrder (layoutFields (level + 1) fields)).map fun f => quoted f.1 ++ ": " ++ f.2)
  | .special _ shown => layoutAt level shown

def layoutItems (level : Nat) : List Value → List String
  | [] => []
  | v :: rest => layoutAt level v :: layoutItems level rest

def layoutFields (level : Nat) : List (String × Value) → List (String × String)
  | [] => []
  | (key, v) :: rest => (key, layoutAt level v) :: layoutFields level rest
end

/-- The indented JSON text of a value. -/
def json (v : Value) : String := layoutAt 0 v

end LintRepair.Value
