import ClangLens.Project.Arguments

/-!
# The files of a script

A file system that can be written down: files in a working directory that holds nothing else, and
outside of it the root, the directory `/dev` and the empty file `/dev/null`. None of them is a link.
-/

namespace ClangLens.Script

/-- The contents of the files in the working directory, by name. -/
abbrev Files := List (Bytes × Bytes)

namespace Files

/-! ## Segments -/

/-- A segment that leads to where it is. -/
def stays (segment : Bytes) : Bool := segment = [] || segment = [Path.dot]

/-- A segment that leads to the directory above. -/
def climbs (segment : Bytes) : Bool := segment = [Path.dot, Path.dot]

/-! ## Outside the working directory -/

/-- What exists there, by the names on the way from the root. -/
def outside : List (List Bytes) :=
  [[], [Utf8.encode "dev"], [Utf8.encode "dev", Utf8.encode "null"]]

/-- One step on the way from the root; only a directory can be stepped from. -/
def step? (names : List Bytes) (segment : Bytes) : Option (List Bytes) :=
  let next :=
    if stays segment then names
    else if climbs segment then names.dropLast
    else names ++ [segment]
  if names.length < 2 && outside.contains next then some next else none

/-- The canonical form of a path from the root to something that exists. -/
def canonical : Canonical := fun p =>
  if p.isAbsolute then
    ((Path.segments p.bytes).foldlM step? []).map fun names =>
      ⟨Path.separator :: Path.unsegments names⟩
  else none

def devNull : Path := .ofString "/dev/null"

/-! ## The working directory -/

/-- The name in the working directory that a path means. -/
def nameOf? (p : Path) : Option Bytes :=
  match (Path.segments p.bytes).reverse with
  | name :: rest =>
    if stays name || climbs name || p.isAbsolute || !rest.all stays then none else some name
  | [] => none

/-- What a directory is when it is read. -/
def directory : Stored := .unreadable "Is a directory (os error 21)"

/-- What a path leads to. -/
def stored (files : Files) (p : Path) : Stored :=
  match nameOf? p, canonical p with
  | some name, _ => ((files.lookup name).map Stored.bytes).getD .absent
  | none, some c => if c = devNull then .bytes [] else directory
  | none, none =>
    if p.bytes ≠ [] && (Path.segments p.bytes).all fun s => stays s || climbs s then directory
    else .absent

end Files

end ClangLens.Script
