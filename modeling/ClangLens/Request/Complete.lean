import ClangLens.Request.Parse

/-!
# Requests for code completion

Built from steps like a parse request. The position is set as a whole, so a request never misses a
column alone.
-/

namespace ClangLens

/-- A place to complete at and what to offer there. -/
structure CompleteRequest where
  file : Path
  line : UInt32
  column : UInt32
  flags : CompleteFlags
  unsaved : List UnsavedFile
  /-- Whether results are put in order before they are read. -/
  sorted : Bool
deriving DecidableEq

namespace CompleteRequest

/-- What is offered when nothing else is said: macros, and brief comments. -/
def defaultFlags : CompleteFlags := CompleteFlags.macros.union CompleteFlags.briefComments

/-- A step in making a request. -/
inductive Step where
  | file (path : Path)
  | position (line column : UInt32)
  | flags (flags : CompleteFlags)
  | unsaved (file : UnsavedFile)
  | sorted (on : Bool)

/-- A request in the making. -/
structure Draft where
  file : Option Path := none
  position : Option (UInt32 × UInt32) := none
  flags : Option CompleteFlags := none
  unsaved : List UnsavedFile := []
  sorted : Option Bool := none

/-- A draft after one more step. -/
def Draft.add (d : Draft) : Step → Draft
  | .file path => { d with file := some path }
  | .position line column => { d with position := some (line, column) }
  | .flags flags => { d with flags := some flags }
  | .unsaved file => { d with unsaved := d.unsaved ++ [file] }
  | .sorted on => { d with sorted := some on }

/-- The draft that steps amount to. -/
def Draft.ofSteps (steps : List Step) : Draft := steps.foldl Draft.add {}

/-- The request of a draft. -/
def Draft.build (d : Draft) : Except RequestFault CompleteRequest := do
  let file ← Request.require "file" d.file
  let (line, column) ← Request.require "line" d.position
  Request.checkPath file
  Request.checkPosition line column
  return ⟨file, line, column, d.flags.getD defaultFlags, d.unsaved, d.sorted.getD true⟩

/-- The request that steps amount to. -/
def ofSteps (steps : List Step) : Except RequestFault CompleteRequest :=
  (Draft.ofSteps steps).build

end CompleteRequest

end ClangLens
