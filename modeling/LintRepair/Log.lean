import LintRepair.Value.Json

/-!
# Log entries

Entries name the part of the program that speaks. A threshold decides which entries are shown, and a
shown entry is one console call for its message and one more for its data.
-/
namespace LintRepair

inductive LogLevel where
  | debug
  | info
  | warn
  | error
  | silent
deriving DecidableEq, Repr, Inhabited

namespace LogLevel

def rank : LogLevel → Nat
  | debug => 0
  | info => 1
  | warn => 2
  | error => 3
  | silent => 4

def label : LogLevel → String
  | debug => "debug"
  | info => "info"
  | warn => "warn"
  | error => "error"
  | silent => "silent"

def ofLabel? (s : String) : Option LogLevel := [debug, info, warn, error, silent].find? (·.label = s)

end LogLevel

/-- Where a line is printed. -/
inductive Channel where
  | output
  | problems
deriving DecidableEq, Repr, Inhabited

def LogLevel.channel : LogLevel → Channel
  | .debug | .info => .output
  | .warn | .error | .silent => .problems

/-- A terminal style: the codes that switch it on and off. -/
structure Style where
  start : String
  stop : String
deriving Repr, Inhabited

namespace Style

def escape (code : String) : String := "\x1b[" ++ code ++ "m"

def ofCodes (start stop : String) : Style := ⟨escape start, escape stop⟩

def red : Style := ofCodes "31" "39"
def green : Style := ofCodes "32" "39"
def yellow : Style := ofCodes "33" "39"
def blue : Style := ofCodes "34" "39"
def cyan : Style := ofCodes "36" "39"
def gray : Style := ofCodes "90" "39"
def dim : Style := ofCodes "2" "22"
def bold : Style := ofCodes "1" "22"

/-- Characters that are shown in a style: it is switched off before every line end and back on after it, and a
stop code among them is followed by the start code. `seen` stands before them, the last character first. -/
def paintChars (s : Style) (seen : List Char) : List Char → List Char
  | [] => s.stop.toList
  | '\r' :: '\n' :: rest => s.stop.toList ++ '\r' :: '\n' :: (s.start.toList ++ paintChars s [] rest)
  | '\n' :: rest => s.stop.toList ++ '\n' :: (s.start.toList ++ paintChars s [] rest)
  | c :: rest =>
    if s.stop.toList.reverse.isPrefixOf (c :: seen) then c :: (s.start.toList ++ paintChars s [] rest)
    else c :: paintChars s (c :: seen) rest

/-- The text in a style. -/
def paint (s : Style) (text : String) : String :=
  if text.isEmpty then "" else String.ofList (s.start.toList ++ s.paintChars [] text.toList)

/-- A style that is only used when colours are on. -/
def paintIf (colors : Bool) (s : Style) (text : String) : String := if colors then s.paint text else text

end Style

def LogLevel.style : LogLevel → Style
  | .debug => .gray
  | .info => .blue
  | .warn => .yellow
  | .error | .silent => .red

/-- A printed piece of text, with its line end. -/
structure Printed where
  channel : Channel
  text : String
deriving DecidableEq, Repr, Inhabited

structure LogEntry where
  level : LogLevel
  /-- The part of the program that speaks; empty for the program itself. -/
  speaker : String
  message : String
  /-- The text that follows on lines of its own. -/
  data : Option String := none
deriving DecidableEq, Repr, Inhabited

namespace LogEntry

def headline (e : LogEntry) : String :=
  let said := if e.speaker.isEmpty then e.message else "[" ++ e.speaker ++ "] " ++ e.message
  "[" ++ e.level.label.toUpper ++ "] " ++ said

/-- What an entry prints under a threshold. -/
def printed (threshold : LogLevel) (colors : Bool) (e : LogEntry) : List Printed :=
  if e.level.rank < threshold.rank then []
  else
    let line (s : String) : Printed := ⟨e.level.channel, e.level.style.paintIf colors s ++ "\n"⟩
    line e.headline :: (e.data.map line).toList

end LogEntry

/-- Named speakers below one program; a child's name goes behind its parent's. -/
def speakerBelow (parent name : String) : String := if parent.isEmpty then name else parent ++ ":" ++ name

end LintRepair
