import ClangLens.Text.Shown

/-!
# Faults of a request

What can be wrong with a request before anything is asked of the library.
-/

namespace ClangLens

/-- Why a request was refused. -/
inductive RequestFault where
  | missingField (field : String)
  | invalidArguments (args : List String) (reason : String)
  | invalidPosition (line column : UInt32) (reason : String)
  | invalidPath (path reason : String)
deriving DecidableEq

namespace RequestFault

/-- The name of the kind of fault. -/
def kind : RequestFault → String
  | .missingField .. => "MissingField"
  | .invalidArguments .. => "InvalidArguments"
  | .invalidPosition .. => "InvalidPosition"
  | .invalidPath .. => "InvalidPath"

/-- The structure of a fault. -/
def shown (fault : RequestFault) : Shown :=
  .record fault.kind <|
    match fault with
    | .missingField field => [("field", .text field)]
    | .invalidArguments args reason =>
      [("args", .list (args.map .text)), ("reason", .text reason)]
    | .invalidPosition line column reason =>
      [("line", .nat line.toNat), ("column", .nat column.toNat), ("reason", .text reason)]
    | .invalidPath path reason => [("path", .text path), ("reason", .text reason)]

/-- The sentence for a fault. -/
def message : RequestFault → String
  | .missingField field => "Missing required field: " ++ field
  | .invalidArguments args reason =>
    "Invalid compiler arguments: " ++ (Shown.list (args.map .text)).render ++ " - " ++ reason
  | .invalidPosition line column reason =>
    "Invalid position " ++ toString line.toNat ++ ":" ++ toString column.toNat ++ " - " ++ reason
  | .invalidPath path reason => "Invalid path: " ++ path ++ " - " ++ reason

end RequestFault

end ClangLens
