import ClangLens.Command.Basic
import ClangLens.Inspect.Library
import ClangLens.Report.Diagnostics

/-!
# Reporting diagnostics

One entry for each diagnostic of a unit, in the order of their indices.
-/

namespace ClangLens.Command

open Dialogue

/-- The entry of a fix-it. -/
def fixItEntry (f : FixIt) : Dialogue FixItEntry := do return ⟨← f.range.span?, f.replacement⟩

/-- The entry of a diagnostic. -/
def diagnosticEntry (options : DisplayOptions) (d : Diagnostic) : Dialogue DiagnosticEntry := do
  let severity ← d.severity
  let message ← d.spelling
  let location ← (← d.location).pointSpan?
  let formatted ← d.format options
  let category ← d.category?
  let option ← d.option?
  let fixIts ← collect (← d.numFixIts) fun i => do
    match ← d.fixIt? i with
    | none => return none
    | some f => return some (← fixItEntry f)
  return ⟨severity, message, location, formatted, category, option, fixIts⟩

/-- The diagnostics of a unit. -/
def diagnosticsOf (file : Path) (unit : TranslationUnit) : Dialogue DiagnosticsReport := do
  let options ← DisplayOptions.proposed
  return ⟨file, ← unit.mapDiagnostics (diagnosticEntry options)⟩

/-- The diagnostics of a file. -/
def diagnostics (around : Surroundings) (file : Path) (args : List String) :
    Dialogue (Except Failure DiagnosticsReport) :=
  onFile around file args fun _ unit => do return .ok (← diagnosticsOf file unit)

end ClangLens.Command
