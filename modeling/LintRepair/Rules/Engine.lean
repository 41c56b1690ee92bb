import LintRepair.Repair.Engine
import LintRepair.Rules.Repairs
import LintRepair.Syntax.Layout.File

/-!
# The built-in rules and their engine
-/
namespace LintRepair.Rules

open Syntax

/-- The built-in checks, open to more. -/
def builtinChecks : Catalog SourceFile :=
  .ofList ([noVarCheck, eqeqeqCheck, noDebuggerCheck, useIsNaNCheck, radixCheck, curlyCheck,
    noThrowLiteralCheck, defaultCaseCheck].map fun c => (c.ruleId, c))

/-- The built-in repairs, open to more. -/
def builtinProcessors : Processors SourceFile :=
  .ofList (([
    { ruleId := "no-var", name := "NoVar", description := "Replace var with let", apply := noVar },
    { ruleId := "eqeqeq", name := "StrictEquality",
      description := "Replace loose equality operators with strict ones", apply := eqeqeq },
    { ruleId := "no-debugger", name := "RemoveDebugger", description := "Delete debugger statements",
      apply := noDebugger },
    { ruleId := "use-isnan", name := "UseIsNaN",
      description := "Replace NaN comparisons with Number.isNaN", apply := useIsNaN },
    { ruleId := "radix", name := "ParseIntRadix", description := "Pass radix 10 to parseInt",
      apply := radix },
    { ruleId := "curly", name := "AddBraces", description := "Wrap single-statement bodies in a block",
      apply := curly },
    { ruleId := "no-throw-literal", name := "ThrowError",
      description := "Throw new Error(message) instead of a string", apply := noThrowLiteral },
    { ruleId := "default-case", name := "AddDefaultCase",
      description := "Add an empty default clause to switch statements", targeted := false,
      apply := defaultCase }] : List (Processor SourceFile)).map fun p => (p.ruleId, p))

/-- The built-in checks, for everyone. -/
def sharedChecks : Catalog SourceFile := builtinChecks.freeze

/-- The built-in repairs, for everyone. -/
def sharedProcessors : Processors SourceFile := builtinProcessors.freeze

/-- Source files as the engine reads and writes them. -/
def sourceLanguage (indentSize : Nat) : Language SourceFile where
  parse := parse
  render tree mode := match mode with
    | .targeted => .ok tree.render
    | .full => .ok ((SourceFile.read (.ofPath tree.filePath) (.ofText tree.render)).reprint indentSize)
  fragments := fragments

/-- The engine over the shared registers. -/
def engine (indentSize : Nat) : Engine SourceFile :=
  ⟨sourceLanguage indentSize, Catalog.analyzer sharedChecks, sharedProcessors⟩

end LintRepair.Rules
