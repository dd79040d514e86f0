import ClangLens.Project.Entry
import ClangLens.Source.SpanJson

/-!
# Compilation databases

A database is a file with at least one entry; it loads as a whole or not at all. The first entry
for a file answers for it, and lists of paths are in the order of paths without two that mean the
same.
-/

namespace ClangLens

/-- What a path leads to in the file system. -/
inductive Stored where
  | absent
  /-- There is something that cannot be opened. -/
  | closed (reason : String)
  /-- There is something that cannot be read, such as a directory. -/
  | unreadable (reason : String)
  | bytes (contents : Bytes)

/-- What a path leads to, or something else where that is nothing. -/
def Stored.or : Stored → Stored → Stored
  | .absent, other => other
  | stored, _ => stored

/-- Why a database did not load. -/
inductive DatabaseFault where
  | notFound (path : String)
  | notOpened (reason : String)
  | notParsed (reason : String)
  | empty
deriving DecidableEq

namespace DatabaseFault

/-- The name of the kind of fault. -/
def kind : DatabaseFault → String
  | .notFound _ => "FileNotFound"
  | .notOpened _ => "ReadError"
  | .notParsed _ => "ParseError"
  | .empty => "EmptyDatabase"

/-- The sentence for a fault. -/
def message : DatabaseFault → String
  | .notFound path => "Compilation database file not found: " ++ path
  | .notOpened reason => "Failed to read compilation database file: " ++ reason
  | .notParsed reason => "Failed to parse compilation database JSON: " ++ reason
  | .empty => "Compilation database is empty"

/-- The structure of a fault. -/
def shown (fault : DatabaseFault) : Shown :=
  match fault with
  | .notFound path => .record fault.kind [("path", .text path)]
  | .notOpened reason | .notParsed reason => .record fault.kind [("error", .text reason)]
  | .empty => .word fault.kind

/-- What is said about a text that is no list of entries. -/
def reasonOf : Json.Fault → String
  | .stopped .ended => "the text ends early"
  | .stopped .malformed => "not JSON"
  | .mismatched => "not a list of entries"

end DatabaseFault

/-- A loaded database. -/
structure Database where
  path : Path
  entries : List DatabaseEntry
deriving DecidableEq

namespace Database

/-- The database at a path. -/
def load (path : Path) : Stored → Except DatabaseFault Database
  | .absent => .error (.notFound path.text)
  | .closed reason => .error (.notOpened reason)
  | .unreadable reason => .error (.notParsed reason)
  | .bytes contents =>
    match DatabaseEntry.listOfText contents with
    | .error fault => .error (.notParsed (DatabaseFault.reasonOf fault))
    | .ok [] => .error .empty
    | .ok entries => .ok ⟨path, entries⟩

/-- The entry that answers for a path. -/
def entryFor? (db : Database) (p : Path) : Option DatabaseEntry :=
  db.entries.find? fun e => e.matches? p

/-- Whether some entry answers for a path. -/
def containsFile (db : Database) (p : Path) : Bool := (db.entryFor? p).isSome

/-- Runs of paths that mean the same cut down to their first one. -/
def firstOfRuns : List Path → List Path
  | [] => []
  | [p] => [p]
  | p :: q :: rest => if p.same q then firstOfRuns (p :: rest) else p :: firstOfRuns (q :: rest)
termination_by paths => paths.length

/-- Paths in their order, without two that mean the same; of those the earliest spelling stays. -/
def distinct (paths : List Path) : List Path := firstOfRuns (paths.mergeSort Path.le)

/-- The files of all entries. -/
def sourceFiles (db : Database) : List Path := distinct (db.entries.map DatabaseEntry.file)

/-- The directories of all entries. -/
def directories (db : Database) : List Path := distinct (db.entries.map DatabaseEntry.directory)

/-- A database is written as its path. -/
def json (db : Database) : Except Unwritable Json := db.path.json

end Database

end ClangLens
