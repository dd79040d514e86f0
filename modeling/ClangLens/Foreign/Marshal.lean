import ClangLens.Failure
import ClangLens.Request.Complete

/-!
# What is handed to the library

Texts go to the library as bytes that end at the first NUL, so a text that holds one is refused, as
is a path that is not text. Lists go as an array and a count, and an empty list as no array at all.
-/

namespace ClangLens

/-- A text the library can take. -/
structure ForeignText where
  bytes : Bytes
  nul_not_mem : 0 ∉ bytes
deriving DecidableEq

namespace ForeignText

/-- A text without NUL. -/
def ofBytes (bytes : Bytes) : Except Failure ForeignText :=
  if h : 0 ∈ bytes then .error (.interiorNul bytes) else .ok ⟨bytes, h⟩

def ofString (s : String) : Except Failure ForeignText := ofBytes (Utf8.encode s)

/-- A path that is text. -/
def ofPath (p : Path) : Except Failure ForeignText :=
  match p.text? with
  | some s => ofString s
  | none => .error (.nonUtf8Path p)

end ForeignText

/-- A truth value as a number. -/
def truthCode (b : Bool) : UInt32 := if b then 1 else 0

/-- A list handed over as an array and a count. -/
structure ForeignArray (α : Type) where
  /-- The items, unless there is no array. -/
  items : Option (List α)
  count : UInt32
deriving DecidableEq

/-- No array for an empty list. -/
def ForeignArray.ofList {α : Type} (l : List α) : ForeignArray α :=
  ⟨if l.isEmpty then none else some l, l.length.toUInt32⟩

/-- Contents handed over in place of those of a file. -/
structure UnsavedRecord where
  name : ForeignText
  contents : ForeignText
  /-- How many bytes of contents there are. -/
  length : UInt64
deriving DecidableEq

/-- The record of an unsaved file; its name is looked at first. -/
def UnsavedRecord.ofFile (file : UnsavedFile) : Except Failure UnsavedRecord := do
  let name ← ForeignText.ofPath file.path
  let contents ← ForeignText.ofString file.contents
  return ⟨name, contents, contents.bytes.length.toUInt64⟩

/-- The records of unsaved files. -/
def UnsavedRecord.ofFiles (files : List UnsavedFile) :
    Except Failure (ForeignArray UnsavedRecord) := do
  return .ofList (← files.mapM ofFile)

end ClangLens
