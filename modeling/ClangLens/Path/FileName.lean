import ClangLens.Path.Basic

/-!
# The last name of a path

The file name of a path, its stem and extension, and the path with another file name. A file name
is cut at its last dot unless that dot starts it.
-/

namespace ClangLens.Path

/-- The name a path ends in, if it ends in a name. -/
def fileName? (p : Path) : Option Bytes :=
  match p.components.getLast? with
  | some (.name b) => some b
  | _ => none

/-- What stands before and behind the last dot, if there is one. -/
def splitLastDot (name : Bytes) : Option (Bytes × Bytes) :=
  let tail := (name.reverse.takeWhile (· ≠ dot)).reverse
  if tail.length < name.length then some (name.take (name.length - tail.length - 1), tail)
  else none

/-- The stem and the extension of a file name. -/
def cutExtension (name : Bytes) : Bytes × Option Bytes :=
  match splitLastDot name with
  | some (stem, extension) => if stem = [] then (name, none) else (stem, some extension)
  | none => (name, none)

/-- Segments without meaning at the end of a list of segments dropped; the first one stays. -/
def dropIdle : List Bytes → List Bytes
  | [] => []
  | first :: rest =>
    first :: (rest.reverse.dropWhile fun s => s = [] || s = [dot]).reverse

/-- What is spelled in front of the last component. -/
def parentBytes (p : Path) : Bytes :=
  let kept := dropIdle ((dropIdle (segments p.bytes)).dropLast)
  if p.isAbsolute && unsegments kept = [] then [separator] else unsegments kept

/-- The path with another file name; a path that ends in no name is extended. -/
def withFileName (p : Path) (name : Bytes) : Path :=
  match p.fileName? with
  | some _ => join ⟨p.parentBytes⟩ ⟨name⟩
  | none => p.join ⟨name⟩

end ClangLens.Path
