import ClangLens.Json.Reading
import ClangLens.Path.Basic
import ClangLens.Project.Words

/-!
# Entries of a compilation database

How one file is compiled. An entry is a JSON object with a directory, a file, the command either as
a list of arguments or as one line to be cut into words, and perhaps an output. No other field is
allowed, none may be null, and of a field given twice the last one counts.
-/

namespace ClangLens

/-- How one file is compiled. -/
structure DatabaseEntry where
  directory : Path
  file : Path
  /-- The compiler and its arguments. -/
  arguments : List String
  output : Option Path
deriving DecidableEq

namespace DatabaseEntry

/-- The file as seen from outside the directory. -/
def location (e : DatabaseEntry) : Path := e.directory.join e.file

/-- Whether a path means the file of an entry, as given or seen from outside. -/
def matches? (e : DatabaseEntry) (p : Path) : Bool := e.file.same p || e.location.same p

/-- The fields met so far. -/
structure Draft where
  directory : Option String := none
  file : Option String := none
  arguments : Option (List String) := none
  command : Option String := none
  output : Option String := none

/-- A list of texts. -/
def asTexts : Json.Reading → Except Json.Fault (List String)
  | .array items stop => do
    let texts ← items.mapM Json.Reading.asText
    Json.stopped stop (.ok texts)
  | r => r.wrongShape

/-- A draft with one more field. -/
def Draft.add (d : Draft) (name : String) (r : Json.Reading) : Except Json.Fault Draft :=
  match name with
  | "directory" => do return { d with directory := some (← r.asText) }
  | "file" => do return { d with file := some (← r.asText) }
  | "arguments" => do return { d with arguments := some (← asTexts r) }
  | "command" => do return { d with command := some (← r.asText) }
  | "output" => do return { d with output := some (← r.asText) }
  | _ => .error .mismatched

/-- A draft with the fields of all members. -/
def Draft.addAll (d : Draft) : List (Json.Literal × Json.Reading) → Except Json.Fault Draft
  | [] => .ok d
  | (key, r) :: rest => do
    let name ← Json.Reading.ofLiteral key
    let d ← d.add name r
    d.addAll rest

/-- The words of a draft: exactly one of arguments and command. -/
def Draft.words (d : Draft) : Except Json.Fault (List String) :=
  match d.arguments, d.command with
  | some arguments, none => .ok arguments
  | none, some command =>
    match Words.split command with
    | some words => .ok words
    | none => .error .mismatched
  | _, _ => .error .mismatched

/-- The entry of a draft. -/
def Draft.build (d : Draft) : Except Json.Fault DatabaseEntry :=
  match d.directory, d.file with
  | some directory, some file => do
    return ⟨Path.ofString directory, Path.ofString file, ← d.words, d.output.map Path.ofString⟩
  | _, _ => .error .mismatched

/-- The entry that a JSON object is. -/
def ofReading : Json.Reading → Except Json.Fault DatabaseEntry
  | .object members stop => do
    let draft ← Draft.addAll {} members
    Json.stopped stop draft.build
  | r => r.wrongShape

/-- The entries that a JSON array holds. -/
def listOfReading : Json.Reading → Except Json.Fault (List DatabaseEntry)
  | .array items stop => do
    let entries ← items.mapM ofReading
    Json.stopped stop (.ok entries)
  | r => r.wrongShape

/-- The entries that a file spells. -/
def listOfText (text : Bytes) : Except Json.Fault (List DatabaseEntry) :=
  Json.readAs listOfReading text

end DatabaseEntry

end ClangLens
