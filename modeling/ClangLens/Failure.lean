import ClangLens.Codes.Status
import ClangLens.Path.Basic
import ClangLens.Request.Fault

/-!
# Failures

What can go wrong on the way to an answer of the library. A status the library gives is kept as the
number it was.
-/

namespace ClangLens

/-- Why a call on the library gave no answer. -/
inductive Failure where
  /-- The library could not be loaded. -/
  | libraryLoad (reason : String)
  /-- The library is loaded already. -/
  | alreadyLoaded
  | parse (path : Path) (status : Coded Status)
  | reparse (status : Coded Status)
  | save (path : Path) (status : Coded SaveStatus)
  /-- Completion gave no result set. -/
  | completion (file : Path) (line column : UInt32)
  | indexing (status : Coded Status)
  /-- A text holds the byte that would end it. -/
  | interiorNul (text : Bytes)
  | nonUtf8Path (path : Path)
  | request (fault : RequestFault)
deriving DecidableEq

namespace Failure

/-- The position of the first NUL of a text. -/
def nulPosition (text : Bytes) : Nat := (text.takeWhile (· ≠ 0)).length

/-- The sentence about an inner NUL. -/
def nulMessage (text : Bytes) : String :=
  "nul byte found in provided data at position: " ++ toString (nulPosition text)

/-- The name of the kind of failure. -/
def kind : Failure → String
  | .libraryLoad _ => "LibraryLoad"
  | .alreadyLoaded => "AlreadyLoaded"
  | .parse .. => "Parse"
  | .reparse _ => "Reparse"
  | .save .. => "Save"
  | .completion .. => "Completion"
  | .indexing _ => "Indexing"
  | .interiorNul _ => "InteriorNul"
  | .nonUtf8Path _ => "NonUtf8Path"
  | .request _ => "Config"

/-- The sentence for a failure. -/
def message : Failure → String
  | .libraryLoad reason => "Failed to load libclang: " ++ reason
  | .alreadyLoaded => "libclang is already loaded on this thread"
  | .parse path status => "Failed to parse " ++ path.text ++ ": " ++ status.spelling
  | .reparse status => "Failed to reparse translation unit: " ++ status.spelling
  | .save path status =>
    "Failed to save translation unit to " ++ path.text ++ ": " ++ status.spelling
  | .completion file line column =>
    "Code completion failed at " ++ file.text ++ ":" ++ toString line.toNat ++ ":"
      ++ toString column.toNat
  | .indexing status => "Indexing failed: " ++ status.spelling
  | .interiorNul text => "Argument contains an interior NUL byte: " ++ nulMessage text
  | .nonUtf8Path path => "Path is not valid UTF-8: " ++ path.text
  | .request fault => "Configuration error: " ++ fault.message

/-- The sentence of the failure behind a failure. -/
def source? : Failure → Option String
  | .interiorNul text => some (nulMessage text)
  | .request fault => some fault.message
  | _ => none

/-- The structure of a failure. -/
def shown (failure : Failure) : Shown :=
  match failure with
  | .libraryLoad reason => .tuple failure.kind [.text reason]
  | .alreadyLoaded => .word failure.kind
  | .parse path status =>
    .record failure.kind [("path", .bytes path.bytes), ("code", status.shown)]
  | .reparse status | .indexing status => .record failure.kind [("code", status.shown)]
  | .save path status =>
    .record failure.kind [("path", .bytes path.bytes), ("code", status.shown)]
  | .completion file line column =>
    .record failure.kind
      [("file", .bytes file.bytes), ("line", .nat line.toNat), ("column", .nat column.toNat)]
  | .interiorNul text =>
    .tuple failure.kind
      [.tuple "NulError"
        [.nat (nulPosition text), .list (text.map fun b => .nat b.toNat)]]
  | .nonUtf8Path path => .tuple failure.kind [.bytes path.bytes]
  | .request fault => .tuple failure.kind [fault.shown]

end Failure

end ClangLens
