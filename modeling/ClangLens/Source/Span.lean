import ClangLens.Path.Basic
import ClangLens.Text.Shown

/-!
# Positions and spans

Places in source files as plain data. A span in a file is written with the least that tells its
end from its start: nothing when they are equal, the column on one line, else line and column.
-/

namespace ClangLens

/-- A line and a column. -/
structure Position where
  line : UInt32
  column : UInt32
deriving DecidableEq, Inhabited

/-- From a position to a position. -/
structure Span where
  start : Position
  stop : Position
deriving DecidableEq, Inhabited

/-- A span in a named file. -/
structure FileSpan where
  file : Path
  span : Span
deriving DecidableEq, Inhabited

namespace Position

/-- Lines decide, columns break ties. -/
def compare (a b : Position) : Ordering :=
  (Ord.compare a.line b.line).then (Ord.compare a.column b.column)

/-- Whether a position comes no later than another. -/
def le (a b : Position) : Bool := a.compare b ≠ .gt

/-- The text `line:column`. -/
def text (p : Position) : String := toString p.line.toNat ++ ":" ++ toString p.column.toNat

def shown (p : Position) : Shown :=
  .record "Position" [("line", .nat p.line.toNat), ("column", .nat p.column.toNat)]

end Position

def Span.shown (s : Span) : Shown :=
  .record "Span" [("start", s.start.shown), ("end", s.stop.shown)]

namespace FileSpan

/-- The span of a single position. -/
def point (file : Path) (position : Position) : FileSpan := ⟨file, ⟨position, position⟩⟩

/-- What is written behind the start of a span. -/
def tail (s : Span) : String :=
  if s.start = s.stop then ""
  else if s.start.line = s.stop.line then "-" ++ toString s.stop.column.toNat
  else "-" ++ s.stop.text

/-- The text of a span in a file. -/
def text (s : FileSpan) : String := s.file.text ++ ":" ++ s.span.start.text ++ tail s.span

/-- The text of a span that may be missing. -/
def textOrUnknown : Option FileSpan → String
  | some s => s.text
  | none => "<unknown>"

def shown (s : FileSpan) : Shown :=
  .record "FileSpan" [("file_path", .bytes s.file.bytes), ("span", s.span.shown)]

end FileSpan

end ClangLens
