import ClangLens.Codes.Basic

/-!
# Severities of diagnostics

How bad a diagnostic is, and the word reports use for it.
-/

namespace ClangLens

/-- How bad a diagnostic is. -/
inductive Severity where
  | ignored | note | warning | error | fatal
deriving DecidableEq

instance : CodeTable Severity where
  typeName := "DiagnosticSeverity"
  label := "Diagnostic"
  entries := [
    ⟨.ignored, 0, "Ignored"⟩, ⟨.note, 1, "Note"⟩, ⟨.warning, 2, "Warning"⟩, ⟨.error, 3, "Error"⟩,
    ⟨.fatal, 4, "Fatal"⟩]

namespace Severity

/-- The word for a severity. -/
def label : Coded Severity → String
  | .named .ignored => "ignored"
  | .named .note => "note"
  | .named .warning => "warning"
  | .named .error => "error"
  | .named .fatal => "fatal error"
  | .unknown _ => "unknown"

/-- Whether a severity counts as an error. -/
def isError : Coded Severity → Bool
  | .named .error | .named .fatal => true
  | _ => false

end Severity

end ClangLens
