import LintRepair.Log
import LintRepair.Fault

/-!
# Loggers

A family of loggers shares one threshold. A logger knows the speaker it speaks for; a child's speaker
is named below its parent's.
-/
namespace LintRepair

/-- The loggers made so far, by number, and the threshold that they share. -/
structure LoggerFamily where
  threshold : LogLevel := .info
  colors : Bool := false
  speakers : Array String := #[""]
deriving Repr, Inhabited

namespace LoggerFamily

def speaker (f : LoggerFamily) (logger : Nat) : String := f.speakers.getD logger ""

/-- Adds a logger below another; the new one's number comes with it. -/
def child (f : LoggerFamily) (logger : Nat) (name : String) : LoggerFamily × Nat :=
  ({ f with speakers := f.speakers.push (speakerBelow (f.speaker logger) name) }, f.speakers.size)

def say (f : LoggerFamily) (logger : Nat) (level : LogLevel) (message : String) (data : Option String) :
    List Printed :=
  LogEntry.printed f.threshold f.colors ⟨level, f.speaker logger, message, data⟩

end LoggerFamily

/-- The switches that decide how much a command prints. -/
structure OutputOptions where
  json : Bool := false
  verbose : Bool := false
  quiet : Bool := false
deriving DecidableEq, Repr, Inhabited

/-- The threshold that the switches ask for; JSON output keeps the console quiet. -/
def OutputOptions.threshold (o : OutputOptions) (current : LogLevel) : Except Fault LogLevel :=
  if o.verbose && o.quiet then .error .verboseAndQuiet
  else if o.quiet || o.json then .ok .silent
  else if o.verbose then .ok .debug
  else .ok current

end LintRepair
