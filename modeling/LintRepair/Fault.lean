import LintRepair.Files.Problem
import LintRepair.Value.Basic

/-!
# Faults

What can go wrong, told apart by its cause. `Fault.failure` gives the class, the code, the wording
and the details under which a cause is reported.
-/
namespace LintRepair

/-- The classes under which failures are reported. -/
inductive FailureClass where
  | base
  | configuration
  | registry
  | parse
  | treeMutation
  | invalidHandle
  | system
deriving DecidableEq, Repr, Inhabited

namespace FailureClass

def name : FailureClass → String
  | base => "MendError"
  | configuration => "ConfigurationError"
  | registry => "RegistryError"
  | parse => "ParseError"
  | treeMutation => "TreeMutationError"
  | invalidHandle => "InvalidHandleError"
  | system => "SystemError"

def all : List FailureClass :=
  [base, configuration, registry, parse, treeMutation, invalidHandle, system]

/-- The classes that a class belongs to, widest first. -/
def ancestry : FailureClass → List FailureClass
  | base => [base]
  | invalidHandle => [base, treeMutation, invalidHandle]
  | c => [base, c]

def ofName? (s : String) : Option FailureClass := all.find? (·.name = s)

end FailureClass

inductive FailureCode where
  | unknownRule
  | missingProcessor
  | conflictingOptions
  | configLoad
  | noRules
  | invalidOption
  | duplicateProcessor
  | duplicateRule
  | registryFrozen
  | syntaxError
  | fragmentError
  | invalidHandle
  | rootMutation
  | detachedNode
  | batchFailed
  | fileNotFound
  | yamlError
deriving DecidableEq, Repr, Inhabited

namespace FailureCode

/-- The constant's listed name and its code. -/
def entry : FailureCode → String × String
  | unknownRule => ("UNKNOWN_RULE", "C001")
  | missingProcessor => ("MISSING_PROCESSOR", "C002")
  | conflictingOptions => ("CONFLICTING_OPTIONS", "C003")
  | configLoad => ("CONFIG_LOAD_ERROR", "C004")
  | noRules => ("NO_RULES", "C005")
  | invalidOption => ("INVALID_OPTION", "C006")
  | duplicateProcessor => ("DUPLICATE_PROCESSOR", "R001")
  | duplicateRule => ("DUPLICATE_RULE", "R002")
  | registryFrozen => ("REGISTRY_FROZEN", "R003")
  | syntaxError => ("PARSE_ERROR", "P001")
  | fragmentError => ("FRAGMENT_ERROR", "P002")
  | invalidHandle => ("INVALID_HANDLE", "T001")
  | rootMutation => ("ROOT_MUTATION", "T002")
  | detachedNode => ("DETACHED_NODE", "T003")
  | batchFailed => ("BATCH_APPLY_FAILED", "T004")
  | fileNotFound => ("FILE_NOT_FOUND", "S001")
  | yamlError => ("YAML_ERROR", "S002")

def text (c : FailureCode) : String := c.entry.2

def all : List FailureCode :=
  [unknownRule, missingProcessor, conflictingOptions, configLoad, noRules, invalidOption,
    duplicateProcessor, duplicateRule, registryFrozen, syntaxError, fragmentError, invalidHandle,
    rootMutation, detachedNode, batchFailed, fileNotFound, yamlError]

end FailureCode

/-- A failure as it is reported. -/
structure Failure where
  kind : FailureClass
  code : String
  message : String
  details : Option Value := none
deriving Repr, Inhabited

namespace Failure

def toValue (f : Failure) : Value :=
  .recordOf [("name", some (.text f.kind.name)), ("code", some (.text f.code)),
    ("message", some (.text f.message)), ("details", f.details)]

/-- One line: the class, and the message unless it is empty. -/
def headline (f : Failure) : String :=
  if f.message.isEmpty then f.kind.name else f.kind.name ++ ": " ++ f.message

end Failure

/-- The causes of failure. -/
inductive Fault where
  | noRulesSelected
  | noRulesConfigured
  | unknownRules (ids : List String)
  | unrepairableRules (ids : List String)
  | verboseAndQuiet
  | configNotFound (path : String)
  | configUnreadable (path : String) (cause : String)
  | notPositiveInteger (option : String) (value : Number)
  | unknownRenderMode (mode : String)
  | duplicateProcessor (ruleId : String)
  | duplicateRule (ruleId : String)
  | frozenProcessors (ruleId : String)
  | frozenCatalog (ruleId : String)
  | unparsable (filePath : String) (diagnostic : String) (count : Nat)
  | invalidFragment (description : String) (code : String) (diagnostic : String)
  | notSingleFragment (description : String) (code : String)
  | invalidHandle (handle : Int)
  | rootMutation (handle : Int) (operation : String)
  | detachedNode (handle : Int) (parent : Int)
  | batchFailed (editType : String) (ruleId : String) (handle : Int) (cause : String)
  | pathNotFound (path : String)
  | yaml (message : String)
  | schema (message : String)
  | argument (message : String)
  | file (problem : FileProblem)
  | emptyPattern
  /-- A range in a pattern that has too many members. -/
  | longRange
  /-- Work in batches of a size below one, which never comes to an end. -/
  | endlessBatches (size : Int)
  /-- A value that is not a text and cannot be turned into one. -/
  | wordless
  | other (message : String)
deriving Repr, Inhabited

namespace Fault

/-- The rule ids of a message, with the noun in the number that fits. -/
def unknownRulesMessage (ids : List String) : String :=
  "Unknown rule" ++ (if ids.length = 1 then "" else "s") ++ ": " ++ String.intercalate ", " ids

/-- The report of a fault that carries a code; the others are known by their message alone. -/
def failure? : Fault → Option Failure
  | noRulesSelected => some ⟨.configuration, FailureCode.noRules.text, "No rules selected", none⟩
  | noRulesConfigured => some ⟨.configuration, FailureCode.noRules.text,
      "No rules selected; pass --rules or set rules in .tsmend/config.yaml", none⟩
  | unknownRules ids => some ⟨.configuration, FailureCode.unknownRule.text, unknownRulesMessage ids,
      some (.record [("rules", .texts ids)])⟩
  | unrepairableRules ids => some ⟨.configuration, FailureCode.missingProcessor.text,
      "No processor registered for: " ++ String.intercalate ", " ids,
      some (.record [("rules", .texts ids)])⟩
  | verboseAndQuiet => some ⟨.configuration, FailureCode.conflictingOptions.text,
      "--verbose and --quiet cannot be used together", none⟩
  | configNotFound path => some ⟨.configuration, FailureCode.configLoad.text,
      "Config file not found: " ++ path, some (.record [("path", .text path)])⟩
  | configUnreadable path cause => some ⟨.configuration, FailureCode.configLoad.text,
      "Failed to load config from " ++ path ++ ": " ++ cause,
      some (.record [("path", .text path), ("originalError", .text cause)])⟩
  | notPositiveInteger option value => some ⟨.configuration, FailureCode.invalidOption.text,
      option ++ " must be a positive integer, got " ++ value.text,
      some (.record [("option", .text option), ("value", .number value)])⟩
  | unknownRenderMode mode => some ⟨.configuration, FailureCode.invalidOption.text,
      "Unknown render mode '" ++ mode ++ "' (expected 'full' or 'targeted')",
      some (.record [("option", .text "mode"), ("value", .text mode)])⟩
  | duplicateProcessor ruleId => some ⟨.registry, FailureCode.duplicateProcessor.text,
      "A processor for rule '" ++ ruleId ++ "' is already registered",
      some (.record [("ruleId", .text ruleId)])⟩
  | duplicateRule ruleId => some ⟨.registry, FailureCode.duplicateRule.text,
      "Rule '" ++ ruleId ++ "' is already registered", some (.record [("ruleId", .text ruleId)])⟩
  | frozenProcessors ruleId => some ⟨.registry, FailureCode.registryFrozen.text,
      "Processor registry is frozen; cannot register '" ++ ruleId ++ "'", none⟩
  | frozenCatalog ruleId => some ⟨.registry, FailureCode.registryFrozen.text,
      "Rule catalog is frozen; cannot register '" ++ ruleId ++ "'", none⟩
  | unparsable filePath diagnostic count => some ⟨.parse, FailureCode.syntaxError.text,
      "Failed to parse " ++ filePath ++ ": " ++ diagnostic,
      some (.record [("filePath", .text filePath), ("errorCount", .nat count)])⟩
  | invalidFragment description code diagnostic => some ⟨.parse, FailureCode.fragmentError.text,
      "Invalid " ++ description ++ " fragment \"" ++ code ++ "\": " ++ diagnostic,
      some (.record [("code", .text code), ("description", .text description)])⟩
  | notSingleFragment description code => some ⟨.parse, FailureCode.fragmentError.text,
      "Code \"" ++ code ++ "\" is not a single " ++ description,
      some (.record [("code", .text code), ("description", .text description)])⟩
  | invalidHandle handle => some ⟨.invalidHandle, FailureCode.invalidHandle.text,
      "Node handle " ++ toString handle ++ " is no longer valid",
      some (.record [("handle", .int handle)])⟩
  | rootMutation handle operation => some ⟨.treeMutation, FailureCode.rootMutation.text,
      "Cannot " ++ operation ++ " the root node",
      some (.record [("handle", .int handle), ("operation", .text operation)])⟩
  | detachedNode handle parent => some ⟨.treeMutation, FailureCode.detachedNode.text,
      "Node " ++ toString handle ++ " is not listed in its parent " ++ toString parent,
      some (.record [("handle", .int handle), ("parent", .int parent)])⟩
  | batchFailed editType ruleId handle cause => some ⟨.treeMutation, FailureCode.batchFailed.text,
      "Failed to apply " ++ editType ++ " edit from '" ++ ruleId ++ "': " ++ cause,
      some (.record [("ruleId", .text ruleId), ("edit", .text editType), ("handle", .int handle)])⟩
  | pathNotFound path => some ⟨.system, FailureCode.fileNotFound.text, "Path not found: " ++ path,
      some (.record [("path", .text path)])⟩
  | yaml message => some ⟨.system, FailureCode.yamlError.text, message, none⟩
  | schema _ | argument _ | file _ | emptyPattern | longRange | endlessBatches _ | wordless | other _ =>
    none

/-- The name of the fault's class. -/
def className (f : Fault) : String :=
  match f with
  | schema _ => "ZodError"
  | argument _ => "InvalidArgumentError"
  | emptyPattern | wordless => "TypeError"
  | longRange => "RangeError"
  | file _ | endlessBatches _ | other _ => "Error"
  | f => match f.failure? with
    | some failure => failure.kind.name
    | none => "Error"

def message (f : Fault) : String :=
  match f with
  | schema m | argument m | other m => m
  | file problem => problem.message
  | emptyPattern => "Patterns must be a string (non empty) or an array of strings"
  | longRange =>
    "expanded array length exceeds range limit. Use options.rangeLimit to increase or disable the limit."
  | endlessBatches size => "Batches of " ++ toString size ++ " files never come to an end"
  | wordless => "Cannot convert object to primitive value"
  | f => match f.failure? with
    | some failure => failure.message
    | none => ""

/-- The code of the fault, or the word for having none. -/
def codeText (f : Fault) : String :=
  match f.failure? with
  | some failure => failure.code
  | none => "UNKNOWN"

def isSyntaxError (f : Fault) : Bool :=
  match f.failure? with
  | some failure => failure.kind == .parse
  | none => false

end Fault

/-- What is thrown and can be asked for its wording: a fault, a bare text, or anything else. -/
inductive Thrown where
  | fault (f : Fault)
  | text (s : String)
  | unnamed
deriving Repr, Inhabited

/-- The wording under which something thrown is recorded. -/
def Thrown.message : Thrown → String
  | .fault f => f.message
  | .text s => s
  | .unnamed => "Unknown error"

/-- Values that can be thrown. Whoever records one asks for its wording, and the question may fail:
the message of an error can be something that throws when it is read, or that is no text. -/
class Throwable (τ : Type) where
  wording : τ → Except Fault String

instance : Throwable Thrown := ⟨fun thrown => .ok thrown.message⟩

/-- Whatever can be thrown, also what fails when it is asked for its wording. -/
inductive AnyThrown where
  | worded (thrown : Thrown)
  | wordless (f : Fault)
deriving Repr, Inhabited

instance : Throwable AnyThrown where
  wording
    | .worded thrown => .ok thrown.message
    | .wordless f => .error f

end LintRepair
