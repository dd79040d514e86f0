import ClangLens.Codes.Severity
import ClangLens.Inspect.Diagnostic
import ClangLens.Report.Basic

/-!
# The diagnostics of a file

As text, each diagnostic as a compiler prints it, its fix-its below, and a count at the end.
-/

namespace ClangLens

/-- A replacement and where it goes. -/
structure FixItEntry where
  span : Option FileSpan
  replacement : String
deriving DecidableEq

structure DiagnosticEntry where
  severity : Coded Severity
  message : String
  location : Option FileSpan
  /-- The diagnostic as a compiler prints it. -/
  formatted : String
  category : Option String
  option : Option DiagnosticOption
  fixIts : List FixItEntry
deriving DecidableEq

structure DiagnosticsReport where
  file : Path
  entries : List DiagnosticEntry
deriving DecidableEq

namespace FixItEntry

/-- One line for a fix-it; an empty replacement removes. -/
def text (f : FixItEntry) : String :=
  if f.replacement = "" then "  fix-it: remove " ++ FileSpan.textOrUnknown f.span ++ "\n"
  else
    "  fix-it: replace " ++ FileSpan.textOrUnknown f.span ++ " with "
      ++ Quoted.text f.replacement ++ "\n"

def json (f : FixItEntry) : Except Unwritable Json := do
  return .object [("span", ← FileSpan.jsonOption f.span), ("replacement", .string f.replacement)]

end FixItEntry

def DiagnosticOption.json (o : DiagnosticOption) : Json :=
  .object [("enable", .string o.enable), ("disable", .option .string o.disable)]

namespace DiagnosticEntry

def text (e : DiagnosticEntry) : String :=
  e.formatted ++ "\n" ++ String.join (e.fixIts.map FixItEntry.text)

def json (e : DiagnosticEntry) : Except Unwritable Json := do
  let location ← FileSpan.jsonOption e.location
  let fixIts ← e.fixIts.mapM FixItEntry.json
  return .object
    [("severity", .string (Severity.label e.severity)), ("message", .string e.message),
      ("location", location), ("formatted", .string e.formatted),
      ("category", .option .string e.category),
      ("option", .option DiagnosticOption.json e.option), ("fix_its", .array fixIts)]

end DiagnosticEntry

namespace DiagnosticsReport

/-- How many diagnostics have a severity. -/
def count (r : DiagnosticsReport) (severity : Coded Severity) : Nat :=
  r.entries.countP fun e => e.severity = severity

/-- Whether some diagnostic is an error. -/
def hasErrors (r : DiagnosticsReport) : Bool := r.entries.any fun e => Severity.isError e.severity

/-- The line that counts. -/
def summary (r : DiagnosticsReport) : String :=
  r.file.text ++ ": " ++ toString r.entries.length ++ " diagnostics ("
    ++ toString (r.count (.named .error) + r.count (.named .fatal)) ++ " errors, "
    ++ toString (r.count (.named .warning)) ++ " warnings)\n"

instance : Report DiagnosticsReport where
  text r := String.join (r.entries.map DiagnosticEntry.text) ++ r.summary
  json r := do
    let file ← r.file.json
    let entries ← r.entries.mapM DiagnosticEntry.json
    return .object [("file", file), ("diagnostics", .array entries)]

end DiagnosticsReport

end ClangLens
