import ClangLens.Flags.Tables
import ClangLens.Request.Check

/-!
# Requests to parse a file

A parse request is built from steps, of which the last one that sets a field counts and those that
add to a list add up; what the steps amount to is checked once, at the end.
-/

namespace ClangLens

/-- Contents that stand in for those of a file. -/
structure UnsavedFile where
  path : Path
  contents : String
deriving DecidableEq

/-- Everything needed to parse one translation unit. -/
structure ParseRequest where
  source : Path
  /-- Compiler arguments without the compiler. -/
  args : List String
  unsaved : List UnsavedFile
  flags : ParseFlags
deriving DecidableEq

namespace ParseRequest

/-- A step in making a request. -/
inductive Step where
  | source (path : Path)
  | args (more : List String)
  | unsaved (file : UnsavedFile)
  | flags (flags : ParseFlags)

/-- A request in the making. -/
structure Draft where
  source : Option Path := none
  args : List String := []
  unsaved : List UnsavedFile := []
  flags : Option ParseFlags := none

/-- A draft after one more step. -/
def Draft.add (d : Draft) : Step → Draft
  | .source path => { d with source := some path }
  | .args more => { d with args := d.args ++ more }
  | .unsaved file => { d with unsaved := d.unsaved ++ [file] }
  | .flags flags => { d with flags := some flags }

/-- The draft that steps amount to. -/
def Draft.ofSteps (steps : List Step) : Draft := steps.foldl Draft.add {}

/-- The request of a draft. -/
def Draft.build (d : Draft) : Except RequestFault ParseRequest := do
  let source ← Request.require "source_file" d.source
  Request.checkPath source
  Request.checkArguments d.args
  return ⟨source, d.args, d.unsaved, d.flags.getD ParseFlags.keepGoing⟩

/-- The request that steps amount to. -/
def ofSteps (steps : List Step) : Except RequestFault ParseRequest := (Draft.ofSteps steps).build

end ParseRequest

end ClangLens
