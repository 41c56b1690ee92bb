/-!
# Declared commands

The options and arguments that a command line may have, and the pages that explain them.
-/
namespace LintRepair

structure CommandOption where
  short : Option Char := none
  long : String
  /-- What stands for the option's value on a help page; nothing for a switch. -/
  placeholder : Option String := none
  /-- The value has to be a whole number. -/
  whole : Bool := false
  description : String
deriving DecidableEq, Repr, Inhabited

namespace CommandOption

def shortFlag? (o : CommandOption) : Option String := o.short.map fun c => String.ofList ['-', c]

def longFlag (o : CommandOption) : String := "--" ++ o.long

/-- The option as it is written on a help page. -/
def flags (o : CommandOption) : String :=
  String.intercalate ", " (o.shortFlag?.toList ++ [o.longFlag]) ++ match o.placeholder with
    | some p => " <" ++ p ++ ">"
    | none => ""

def isFlag (o : CommandOption) (flag : String) : Bool := o.shortFlag? = some flag || o.longFlag = flag

def takesValue (o : CommandOption) : Bool := o.placeholder.isSome

end CommandOption

structure CommandArgument where
  name : String
  description : String
deriving DecidableEq, Repr, Inhabited

/-- What a command does. -/
inductive CommandKind where
  | repair
  | mine
  | listRules
deriving DecidableEq, Repr, Inhabited

structure Command where
  kind : CommandKind
  name : String
  description : String
  arguments : List CommandArgument := []
  options : List CommandOption
deriving DecidableEq, Repr, Inhabited

structure Program where
  name : String
  description : String
  version : String
  commands : List Command
deriving DecidableEq, Repr, Inhabited

/-- The option that every command has. -/
def helpOption : CommandOption where
  short := some 'h'
  long := "help"
  description := "display help for command"

def versionOption : CommandOption where
  short := some 'V'
  long := "version"
  description := "output the version number"

/-- The command that explains the others. -/
def helpCommandName : String := "help"

/-- A page of help: how to call a command, what it does, and lists of terms with their explanations. -/
structure HelpPage where
  usage : String
  description : String
  sections : List (String × List (String × String))
deriving DecidableEq, Repr, Inhabited

namespace HelpPage

/-- The width of a page. -/
def width : Nat := 80

/-- Columns narrower than this are not broken into lines. -/
def narrowest : Nat := 40

/-- Words joined to lines of at most `limit` characters as far as words allow, the last line first. -/
def fill (limit : Nat) (lines : List String) (word : String) : List String :=
  match lines with
  | [] => [word]
  | line :: before =>
    if line.length + 1 + word.length ≤ limit then (line ++ " " ++ word) :: before else word :: line :: before

/-- A text in lines that fit a column and leave its last place free. -/
def broken (column : Nat) (text : String) : List String :=
  if column < narrowest then [text] else ((text.splitOn " ").foldl (fill (column - 1)) []).reverse

def spaces (n : Nat) : String := String.ofList (List.replicate n ' ')

/-- The lines of an entry: the term, and its explanation in a column of its own. -/
def entryLines (termWidth : Nat) (entry : String × String) : List String :=
  let column := termWidth + 2
  match broken (width - 2 - column) entry.2 with
  | [] => [entry.1]
  | first :: rest => (entry.1 ++ spaces (column - entry.1.length) ++ first) :: rest.map (spaces column ++ ·)

def lines (p : HelpPage) : List String :=
  let listed := p.sections.filter fun s => !s.2.isEmpty
  let termWidth := ((listed.flatMap (·.2)).map (·.1.length)).foldl max 0
  ["Usage: " ++ p.usage, ""] ++ broken width p.description ++ [""]
    ++ listed.flatMap fun s =>
      (s.1 ++ ":") :: (s.2.flatMap (entryLines termWidth)).map (spaces 2 ++ ·) ++ [""]

def text (p : HelpPage) : String := String.intercalate "\n" p.lines

end HelpPage

namespace CommandOption

def entry (o : CommandOption) : String × String := (o.flags, o.description)

end CommandOption

namespace Command

/-- How a command is called below its program. -/
def usage (c : Command) : String :=
  String.intercalate " " (c.name :: "[options]" :: c.arguments.map fun a => "<" ++ a.name ++ ">")

def helpPage (programName : String) (c : Command) : HelpPage where
  usage := programName ++ " " ++ c.usage
  description := c.description
  sections := [("Arguments", c.arguments.map fun a => (a.name, a.description)),
    ("Options", (c.options ++ [helpOption]).map CommandOption.entry)]

end Command

namespace Program

def options (_ : Program) : List CommandOption := [versionOption]

def command? (p : Program) (name : String) : Option Command := p.commands.find? (·.name = name)

/-- The names of all commands. -/
def commandNames (p : Program) : List String := p.commands.map (·.name) ++ [helpCommandName]

def helpPage (p : Program) : HelpPage where
  usage := p.name ++ " [options] [command]"
  description := p.description
  sections := [("Options", (p.options ++ [helpOption]).map CommandOption.entry),
    ("Commands", (p.commands.map fun c => (c.usage, c.description))
      ++ [(helpCommandName ++ " [command]", helpOption.description)])]

end Program
end LintRepair
