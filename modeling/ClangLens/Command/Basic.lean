import ClangLens.Inspect.Indexing
import ClangLens.Project.Arguments

/-!
# Commands on one file

Every command parses its file in an index of its own and makes something of the unit. The unit and
then the index are released whatever comes of it. A request that is refused makes no call.
-/

namespace ClangLens

/-- What a command knows besides its request. -/
structure Surroundings where
  canonical : Canonical
  database : Option Database
  /-- Whether the log takes down what the library is asked to do. -/
  logged : Bool

namespace Command

open Dialogue

/-- What is made of the unit of a request, in an index and a unit that are released afterwards. -/
def withUnit {α : Type} (request : ParseRequest)
    (body : Index.Pointer → TranslationUnit → Dialogue (Except Failure α)) :
    Dialogue (Except Failure α) := do
  let index ← Index.create {}
  releasing (.index index) do
    match ← Index.parse index request with
    | .error failure => return .error failure
    | .ok unit => releasing (.unit unit) (body index unit)

/-- What is made of the unit of a file. -/
def onFile {α : Type} (around : Surroundings) (file : Path) (args : List String)
    (body : Index.Pointer → TranslationUnit → Dialogue (Except Failure α)) :
    Dialogue (Except Failure α) :=
  match ParseRequest.forFile around.canonical file args around.database with
  | .error fault => return .error (.request fault)
  | .ok request => withUnit request body

end Command

end ClangLens
