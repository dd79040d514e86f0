import ClangLens.Codes.Severity
import ClangLens.Inspect.Location

/-!
# Diagnostics

What can be asked of a diagnostic. Indices are checked against the count before the library is asked
for what is behind them.
-/

namespace ClangLens

open Dialogue

/-- The options that turn a diagnostic on and off. -/
structure DiagnosticOption where
  enable : String
  disable : Option String
deriving DecidableEq

/-- A text to put in the place of a stretch of source. -/
structure FixIt where
  range : Extent
  replacement : String

namespace FixIt

/-- The fix-it behind an index that is known to be below the count. -/
def taken (owner : FixItOwner) (i : UInt32) : Dialogue FixIt := do
  let answer ← ask (.fixIt owner i)
  return ⟨answer.range, ← takeString answer.replacement⟩

end FixIt

namespace Diagnostic

def severity (d : Diagnostic) : Dialogue (Coded Severity) := askCode (.severity d)

def spelling (d : Diagnostic) : Dialogue String := askText (.diagnosticSpelling d)

def location (d : Diagnostic) : Dialogue Location := ask (.location (.ofDiagnostic d))

/-- The diagnostic as a compiler would print it. -/
def format (d : Diagnostic) (options : DisplayOptions) : Dialogue String :=
  askText (.diagnosticFormat d ⟨options.bits⟩)

def category? (d : Diagnostic) : Dialogue (Option String) := askText? (.diagnosticCategory d)

/-- The options for a diagnostic, if it can be turned on. Both texts are released in any case. -/
def option? (d : Diagnostic) : Dialogue (Option DiagnosticOption) := do
  let (enable, disable) ← ask (.diagnosticOption d)
  let enable ← takeString enable
  let disable ← takeString disable
  return (nonEmpty enable).map fun enable => ⟨enable, nonEmpty disable⟩

def numRanges (d : Diagnostic) : Dialogue UInt32 := askNumber (.diagnosticRanges d)

def range? (d : Diagnostic) (i : UInt32) : Dialogue (Option Extent) :=
  atIndex d.numRanges i do return some (← ask (.extent (.ofDiagnostic d i)))

def numFixIts (d : Diagnostic) : Dialogue UInt32 := askNumber (.diagnosticFixIts d)

def fixIt? (d : Diagnostic) (i : UInt32) : Dialogue (Option FixIt) :=
  atIndex d.numFixIts i do return some (← FixIt.taken (.diagnostic d) i)

def fixIts (d : Diagnostic) : Dialogue (List FixIt) := do
  collect (← d.numFixIts) d.fixIt?

def shown (d : Diagnostic) : Dialogue Shown := do
  let severity ← d.severity
  return .record "Diagnostic" [("severity", severity.shown), ("spelling", .text (← d.spelling))]

/-- What is made of a diagnostic that is released afterwards, if there is one. -/
def using? {α : Type} (f : Diagnostic → Dialogue α) : Option Diagnostic → Dialogue (Option α)
  | none => return none
  | some d => do return some (← releasing (.diagnostic d) (f d))

end Diagnostic

end ClangLens
