import ClangLens.Json.Basic
import ClangLens.Json.Reading
import ClangLens.Source.Span

/-!
# Spans as JSON

A span in a file is written as nested objects and read back from them, or from arrays of the same
values in the same order. A path that is not text cannot be written.
-/

namespace ClangLens

/-- The one reason why a value has no JSON text: a path in it is not text. -/
structure Unwritable where
deriving DecidableEq

/-- The sentence for it. -/
def Unwritable.message (_ : Unwritable) : String := "path contains invalid UTF-8 characters"

/-- A path as JSON. -/
def Path.json (p : Path) : Except Unwritable Json :=
  match p.text? with
  | some s => .ok (.string s)
  | none => .error {}

namespace Position

def json (p : Position) : Json :=
  .object [("line", .number p.line.toNat), ("column", .number p.column.toNat)]

def ofReading (r : Json.Reading) : Except Json.Fault Position := do
  let (line, column) ← r.asPair "line" Json.Reading.asWord "column" Json.Reading.asWord
  return ⟨line, column⟩

end Position

namespace Span

def json (s : Span) : Json := .object [("start", s.start.json), ("end", s.stop.json)]

def ofReading (r : Json.Reading) : Except Json.Fault Span := do
  let (start, stop) ← r.asPair "start" Position.ofReading "end" Position.ofReading
  return ⟨start, stop⟩

end Span

namespace FileSpan

def json (s : FileSpan) : Except Unwritable Json := do
  return .object [("file_path", ← s.file.json), ("span", s.span.json)]

/-- A span that may be missing. -/
def jsonOption : Option FileSpan → Except Unwritable Json
  | some s => s.json
  | none => .ok .null

def ofReading (r : Json.Reading) : Except Json.Fault FileSpan := do
  let (path, span) ← r.asPair "file_path" Json.Reading.asText "span" Span.ofReading
  return ⟨Path.ofString path, span⟩

/-- The span that a JSON text spells. -/
def ofText (text : String) : Except Json.Fault FileSpan := Json.readAs ofReading (Utf8.encode text)

end FileSpan

end ClangLens
