import ClangLens.Foreign.Call

/-!
# Scripts

Everything a library will answer, written down beforehand in tables. A row refers to another one by
the handle the library hands out for it: the number of the row, counted from one where a handle may
be null, and then 0 is the null one.
-/

namespace ClangLens

/-! ## Handles of rows -/

/-- The number of a row behind a handle that may be null. -/
def Script.handle : Option Nat → Nat
  | none => 0
  | some row => row + 1

/-- The row behind a handle that may be null. -/
def Script.rowAt {α : Type} (table : List α) : Nat → Option α
  | 0 => none
  | row + 1 => table[row]?

def Cursor.ofRow (row : Option Nat) : Cursor := ⟨Script.handle row⟩

def Location.ofRow (row : Option Nat) : Location := ⟨Script.handle row⟩

def IndexPlace.ofRow (row : Option Nat) : IndexPlace := ⟨Script.handle row⟩

namespace Script

/-- A text in a table; there may be none. -/
abbrev Text := Option Bytes

/-- A stretch of source in a table, by its ends; there may be none. -/
abbrev Stretch := Option (Location × Location)

/-! ## Rows -/

structure FileRow where
  name : Text := none
  realPath : Text := none
  time : Int64 := 0
  id : Option (UInt64 × UInt64 × UInt64) := none
  /-- Rows with the same number are the same file. -/
  number : Nat := 0

/-- A place that is expanded elsewhere says where. -/
structure LocationRow where
  spelling : PlaceAnswer := ⟨none, 0, 0, 0⟩
  expansion : Option PlaceAnswer := none
  inMainFile : UInt32 := 0
  inSystemHeader : UInt32 := 0

/-- The kind of the null cursor. -/
def nullKind : UInt32 := 70

structure CursorRow where
  kind : UInt32 := 0
  spelling : Text := none
  displayName : Text := none
  usr : Text := none
  rawComment : Text := none
  briefComment : Text := none
  location : Location := ⟨0⟩
  extent : Stretch := none
  semanticParent : Cursor := ⟨0⟩
  lexicalParent : Cursor := ⟨0⟩
  referenced : Cursor := ⟨0⟩
  definition : Cursor := ⟨0⟩
  isDefinition : UInt32 := 0
  children : List Cursor := []
  comment : Option Comment := none

structure CommentRow where
  kind : UInt32 := 0
  children : List (Option Comment) := []
  isWhitespace : UInt32 := 0
  text : Text := none
  inlineCommand : Text := none
  blockCommand : Text := none
  param : Text := none
  renderKind : UInt32 := 0
  args : List Text := []
  html : Text := none
  xml : Text := none

structure FixItRow where
  range : Stretch := none
  replacement : Text := none

structure DiagnosticRow where
  severity : UInt32 := 0
  spelling : Text := none
  location : Location := ⟨0⟩
  format : Text := none
  category : Text := none
  enable : Text := none
  disable : Text := none
  ranges : List Stretch := []
  fixIts : List FixItRow := []

structure ChunkRow where
  kind : UInt32 := 0
  text : Text := none
  phrase : Option Phrase := none

structure PhraseRow where
  chunks : List ChunkRow := []
  priority : UInt32 := 0
  availability : UInt32 := 0
  briefComment : Text := none
  annotations : List Text := []
  parent : Text := none

/-- The results of code completion, wherever it is asked for. -/
structure CompletionTable where
  results : List CompletionRecord := []
  contexts : UInt64 := 0
  container : UInt32 := 0
  isIncomplete : UInt32 := 0
  usr : Text := none
  selector : Text := none
  diagnostics : List (Option Diagnostic) := []
  /-- The fix-its that belong to a place in the array of results. -/
  fixIts : List (List FixItRow) := []

/-- What the indexer reports. -/
inductive Event where
  | declaration (record : Option DeclarationRecord)
  | reference (record : Option ReferenceRecord)

/-- What comes of indexing. -/
structure Indexing where
  events : List Event := []
  status : UInt32 := 0
  /-- The status of an indexer that was told to stop. -/
  abortStatus : UInt32 := 0

/-- What comes of parsing. -/
structure Parsing where
  status : UInt32 := 0
  handsOutUnit : Bool := true

/-- The option words the library proposes. -/
structure Proposals where
  display : UInt32 := 0
  complete : UInt32 := 0
  editing : UInt32 := 0
  reparse : UInt32 := 0
  save : UInt32 := 0

end Script

/-- Everything a library will answer. -/
structure Script where
  version : Script.Text := none
  /-- What every unit calls itself. -/
  spelling : Script.Text := none
  proposals : Script.Proposals := {}
  /-- The global options of a new index. -/
  globalOptions : UInt32 := 0
  parsing : Script.Parsing := {}
  /-- The status of the first reparse, of the second, and so on; then 0. -/
  reparseStatuses : List UInt32 := []
  saveStatus : UInt32 := 0
  files : List Script.FileRow := []
  locations : List Script.LocationRow := []
  /-- The place that every line and column is at. -/
  locationInFile : Location := ⟨0⟩
  /-- The first one is that of every unit. -/
  cursors : List Script.CursorRow := []
  comments : List Script.CommentRow := []
  diagnostics : List Script.DiagnosticRow := []
  unitDiagnostics : List (Option Diagnostic) := []
  phrases : List Script.PhraseRow := []
  completion : Option Script.CompletionTable := none
  indexing : Script.Indexing := {}

/-- How deep anything can be nested that does not go round in circles. -/
def Script.depth (s : Script) : Nat :=
  s.cursors.length + s.comments.length + s.phrases.length + 2

end ClangLens
