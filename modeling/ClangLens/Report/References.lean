import ClangLens.Report.Basic

/-!
# References in a file

As text, a line for each reference and a count at the end. References are in the order of their
places; those without a place come first, and equal ones stay as they were met.
-/

namespace ClangLens

structure ReferenceEntry where
  name : String
  usr : Option String
  entityKind : String
  role : String
  location : Option FileSpan
  /-- The name of the entity the reference appears in. -/
  parent : Option String
deriving DecidableEq

structure ReferencesReport where
  file : Path
  entries : List ReferenceEntry
deriving DecidableEq

namespace ReferenceEntry

/-- Where the reference is, if it is known. -/
def start (e : ReferenceEntry) : Option Position := e.location.map fun s => s.span.start

/-- Whether a reference comes no later than another. -/
def le (a b : ReferenceEntry) : Bool :=
  match a.start, b.start with
  | none, _ => true
  | some _, none => false
  | some p, some q => p.le q

/-- References in the order of their places. -/
def sort (entries : List ReferenceEntry) : List ReferenceEntry := entries.mergeSort le

/-- One line for a reference. -/
def line (e : ReferenceEntry) : String :=
  FileSpan.textOrUnknown e.location ++ ": " ++ e.name ++ " [" ++ e.entityKind ++ "] " ++ e.role
    ++ Report.around " in " "" e.parent ++ "\n"

def json (e : ReferenceEntry) : Except Unwritable Json := do
  return .object
    [("name", .string e.name), ("usr", .option .string e.usr),
      ("entity_kind", .string e.entityKind), ("role", .string e.role),
      ("location", ← FileSpan.jsonOption e.location), ("parent", .option .string e.parent)]

end ReferenceEntry

instance : Report ReferencesReport where
  text r :=
    String.join (r.entries.map ReferenceEntry.line) ++ toString r.entries.length
      ++ " references\n"
  json r := do
    let file ← r.file.json
    let entries ← r.entries.mapM ReferenceEntry.json
    return .object [("file", file), ("references", .array entries)]

end ClangLens
