import ClangLens.Foreign.Text
import ClangLens.Source.Span

/-!
# Files, places and stretches of source

What the library knows of a file, and places resolved to positions in files. A place may have no
file; then it has no span.
-/

namespace ClangLens

open Dialogue

namespace File

def name (f : File) : Dialogue String := askText (.fileName f)

/-- The path the file was found at, if it is known. -/
def realPath? (f : File) : Dialogue (Option String) := askText? (.fileRealPath f)

/-- When the file was changed, in seconds; never before the count begins. -/
def time (f : File) : Dialogue Nat := do return (← ask (.fileTime f)).toInt.toNat

/-- What tells the file from other files. -/
def uniqueId? (f : File) : Dialogue (Option (UInt64 × UInt64 × UInt64)) := do
  let answer ← ask (.fileId f)
  return if answer.status = 0 then some answer.parts else none

/-- Whether the library says that two files are the same. -/
def same (f g : File) : Dialogue Bool := askTruth (.filesEqual f g)

/-- Whether both are missing or both are there and the same. -/
def same? : Option File → Option File → Dialogue Bool
  | none, none => return true
  | some f, some g => f.same g
  | _, _ => return false

def shown (f : File) : Dialogue Shown := do return .record "File" [("name", .text (← f.name))]

/-- The structure of the parts of a file's identity. -/
def idShown : UInt64 × UInt64 × UInt64 → Shown
  | (a, b, c) => .tuple "FileUniqueId" [.list ([a, b, c].map fun n => .nat n.toNat)]

end File

/-- A place resolved to a file and a position. -/
structure Place where
  file : Option File
  position : Position
  offset : UInt32

namespace Place

/-- The place that the library answers with. -/
def ofAnswer (a : PlaceAnswer) : Place := ⟨a.file, ⟨a.line, a.column⟩, a.offset⟩

/-- The name of the file of a place. -/
def fileName? (p : Place) : Dialogue (Option String) :=
  match p.file with
  | none => return none
  | some f => return some (← f.name)

/-- The structure of a place under a name. -/
def shownAs (name : String) (p : Place) : Dialogue Shown := do
  let file ← p.fileName?
  return .record name
    [("file", .option (file.map .text)), ("position", p.position.shown)]

end Place

namespace Location

/-- Where the characters at a place are spelled. -/
def spelling (l : Location) : Dialogue Place := do
  return .ofAnswer (← ask (.place (.spelling l)))

/-- Where what is at a place was expanded. -/
def expansion (l : Location) : Dialogue Place := do
  return .ofAnswer (← ask (.place (.expansion l)))

def isInMainFile (l : Location) : Dialogue Bool := askTruth (.locationInMainFile l)

def isInSystemHeader (l : Location) : Dialogue Bool := askTruth (.locationInSystemHeader l)

/-- Whether the library says that two places are the same. -/
def same (l m : Location) : Dialogue Bool := askTruth (.locationsEqual l m)

/-- The span of a place alone, if it has a file. -/
def pointSpan? (l : Location) : Dialogue (Option FileSpan) := do
  let place ← l.spelling
  match ← place.fileName? with
  | none => return none
  | some name => return some (.point (Path.ofString name) place.position)

def shown (l : Location) : Dialogue Shown := do (← l.spelling).shownAs "SourceLocation"

end Location

namespace Extent

def start (e : Extent) : Dialogue Location := ask (.location (.startOf e))

def stop (e : Extent) : Dialogue Location := ask (.location (.stopOf e))

def isNull (e : Extent) : Dialogue Bool := askTruth (.extentIsNull e)

/-- The span of a stretch: the file where it starts, and the positions of both ends. -/
def span? (e : Extent) : Dialogue (Option FileSpan) := do
  if ← e.isNull then return none
  let start ← (← e.start).spelling
  let stop ← (← e.stop).spelling
  match ← start.fileName? with
  | none => return none
  | some name => return some ⟨Path.ofString name, ⟨start.position, stop.position⟩⟩

def shown (e : Extent) : Dialogue Shown := do
  let span ← e.span?
  return .record "SourceRange" [("span", .option (span.map FileSpan.shown))]

end Extent

end ClangLens
