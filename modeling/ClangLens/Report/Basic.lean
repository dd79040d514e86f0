import ClangLens.Source.SpanJson

/-!
# Reports

What a command prints, as text or as JSON. Only the JSON text can fail: it needs every path to be
text.
-/

namespace ClangLens

/-- Something a command can print. -/
class Report (α : Type) where
  text : α → String
  json : α → Except Unwritable Json

/-- What is printed for a report. -/
def Report.print {α : Type} [Report α] (asJson : Bool) (report : α) : Except Unwritable String :=
  if asJson then do return (← Report.json report).pretty ++ "\n" else .ok (Report.text report)

/-- A text that may be missing, between what stands in front of it and behind it. -/
def Report.around (front back : String) : Option String → String
  | some s => front ++ s ++ back
  | none => ""

/-- The brief comment at the end of a line. -/
def Report.comment (comment : Option String) : String := Report.around "  // " "" comment

/-- The version of the library. -/
structure VersionReport where
  version : String
deriving DecidableEq

instance : Report VersionReport where
  text r := r.version ++ "\n"
  json r := .ok (.object [("version", .string r.version)])

end ClangLens
