import LintRepair.Command.Declaration
import LintRepair.Command.Suggestion
import LintRepair.Wording

/-!
# Reading a command line

Words that look like options are options where the command knows them; the first one that it does not know
turns it and the words behind it over to whoever reads on. Everything after two dashes is an operand.
-/
namespace LintRepair

/-- Why a command line is refused. -/
inductive Refusal where
  | unknownOption (flag : String) (similar : List String)
  | unknownCommand (name : String) (similar : List String)
  | missingArgument (name : String)
  | missingValue (option : CommandOption)
  | invalidValue (option : CommandOption) (value reason : String)
deriving DecidableEq, Repr, Inhabited

namespace Refusal

def message : Refusal → String
  | unknownOption flag similar => "error: unknown option '" ++ flag ++ "'" ++ Suggestion.text similar
  | unknownCommand name similar => "error: unknown command '" ++ name ++ "'" ++ Suggestion.text similar
  | missingArgument name => "error: missing required argument '" ++ name ++ "'"
  | missingValue option => "error: option '" ++ option.flags ++ "' argument missing"
  | invalidValue option value reason =>
    "error: option '" ++ option.flags ++ "' argument '" ++ value ++ "' is invalid. " ++ reason

end Refusal

/-- What a reader makes of the words of a command line. -/
structure Words where
  /-- The options that were met, by long name, with their values. -/
  given : List (String × String) := []
  operands : List String := []
  /-- The first unknown option and what follows it. -/
  unknown : List String := []
deriving DecidableEq, Repr, Inhabited

namespace Words

/-- Whether a switch was met. -/
def has (w : Words) (long : String) : Bool := w.given.any (·.1 = long)

/-- The last value of an option. -/
def value? (w : Words) (long : String) : Option String := (w.given.filter (·.1 = long)).getLast?.map (·.2)

/-- The last value of an option for whole numbers. -/
def whole? (w : Words) (long : String) : Option Int := (w.value? long).bind fun v => (parseInteger v).toOption

/-- Adds a word that is no option of the reader. -/
def addOther (w : Words) (word : String) (looksLikeOption : Bool) : Words :=
  if looksLikeOption || !w.unknown.isEmpty then { w with unknown := w.unknown ++ [word] }
  else { w with operands := w.operands ++ [word] }

/-- Adds an option with its value, which is checked. -/
def addOption (w : Words) (option : CommandOption) (value : String) : Except Refusal Words :=
  let added : Words := { w with given := w.given ++ [(option.long, value)] }
  if option.whole then
    match parseInteger value with
    | .ok _ => .ok added
    | .error f => .error (.invalidValue option value f.message)
  else .ok added

/-- The option that a word of the form `--name=value` spells, and the value. -/
def assigned? (options : List CommandOption) (word : List Char) : Option (CommandOption × String) :=
  match word with
  | '-' :: '-' :: c :: cs =>
    let name := c :: cs.takeWhile (· ≠ '=')
    if c = '=' then none
    else match cs.dropWhile (· ≠ '=') with
      | '=' :: value =>
        (options.find? fun o => o.takesValue && o.longFlag = String.ofList ('-' :: '-' :: name)).map
          (·, String.ofList value)
      | _ => none
  | _ => none

/-- A reading step: the words so far and the words still to come. -/
abbrev Step := Except Refusal (Words × List (List Char))

/-- What the first word does. A switch that begins a bundle leaves the rest of the bundle to come. -/
def readWord (options : List CommandOption) (w : Words) (word : List Char) (rest : List (List Char)) : Step :=
  let text := String.ofList word
  let looksLikeOption := word.head? = some '-' && 1 < word.length
  let bundled : Option (CommandOption × List Char) := match word with
    | '-' :: c :: more => if c = '-' || more.isEmpty then none
      else (options.find? fun (o : CommandOption) => decide (o.short = some c)).map (·, more)
    | _ => none
  match (options.find? fun o => o.isFlag text), bundled, assigned? options word with
  | some option, _, _ =>
    if option.takesValue then
      match rest with
      | [] => .error (.missingValue option)
      | value :: rest => return (← w.addOption option (String.ofList value), rest)
    else return (← w.addOption option "", rest)
  | none, some (option, more), _ =>
    if option.takesValue then return (← w.addOption option (String.ofList more), rest)
    else return (← w.addOption option "", ('-' :: more) :: rest)
  | none, none, some (option, value) => return (← w.addOption option value, rest)
  | none, none, none => return (w.addOther text looksLikeOption, rest)

/-- Reads words one after the other; `fuel` bounds their number, with every bundle counted by its letters. -/
def readAll (options : List CommandOption) : Nat → Words → List (List Char) → Except Refusal Words
  | 0, w, _ => .ok w
  | _, w, [] => .ok w
  | fuel + 1, w, word :: rest =>
    if word = ['-', '-'] then
      let others := rest.map String.ofList
      .ok (if w.unknown.isEmpty then { w with operands := w.operands ++ others }
        else { w with unknown := w.unknown ++ "--" :: others })
    else do
      let (w, rest) ← readWord options w word rest
      readAll options fuel w rest

def read (options : List CommandOption) (words : List String) : Except Refusal Words :=
  let chars := words.map String.toList
  readAll options (chars.foldl (fun n word => n + word.length + 1) 0) {} chars

end Words

/-- What a command line asks for. -/
inductive Request where
  | version (text : String)
  /-- A page of help; `wanted` tells whether it was asked for. -/
  | help (page : HelpPage) (wanted : Bool)
  | refused (reason : Refusal)
  | run (command : Command) (words : Words)
deriving Inhabited

namespace Program

/-- The close ones among long options. -/
def similarOptions (options : List CommandOption) (flag : String) : List String :=
  if flag.startsWith "--" then
    (Suggestion.closest (flag.drop 2).copy (options.map (·.long))).map ("--" ++ ·)
  else []

def asksForHelp (words : List String) : Bool := words.any helpOption.isFlag

/-- What the words behind a command's name ask for. -/
def requestOf (p : Program) (c : Command) (operands words : List String) : Request :=
  match Words.read c.options words with
  | .error reason => .refused reason
  | .ok w =>
    let w := { w with operands := operands ++ w.operands }
    if asksForHelp w.unknown then .help (c.helpPage p.name) true
    else match w.unknown, c.arguments.drop w.operands.length with
      | flag :: _, _ =>
        .refused (.unknownOption flag (similarOptions (c.options ++ helpOption :: p.options) flag))
      | [], missing :: _ => .refused (.missingArgument missing.name)
      | [], [] => .run c w

/-- What a command line asks for. -/
def request (p : Program) (words : List String) : Request :=
  match Words.read p.options words with
  | .error reason => .refused reason
  | .ok w =>
    if w.has versionOption.long then .version p.version
    else match w.operands, w.unknown with
      | [], [] => .help p.helpPage false
      | [], flag :: more =>
        if asksForHelp (flag :: more) then .help p.helpPage true
        else .refused (.unknownOption flag (similarOptions (p.options ++ [helpOption]) flag))
      | name :: operands, unknown =>
        match p.command? name with
        | some c => p.requestOf c operands unknown
        | none =>
          if name = helpCommandName then
            match operands with
            | [] | "" :: _ => .help p.helpPage true
            | topic :: _ => match p.command? topic with
              | some c => .help (c.helpPage p.name) true
              | none => .help p.helpPage false
          else if asksForHelp unknown then .help p.helpPage true
          else .refused (.unknownCommand name (Suggestion.closest name p.commandNames))

end Program
end LintRepair
