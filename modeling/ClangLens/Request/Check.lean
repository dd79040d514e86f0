import ClangLens.Path.Basic
import ClangLens.Request.Fault

/-!
# Checks on the parts of a request

A path or an argument passes if it can be handed to the library as a text that ends at its first
NUL: it is text, and it holds no NUL. A path also has to name something, and lines and columns
count from one.
-/

namespace ClangLens.Request

/-- The character that ends a foreign text. -/
def nul : Char := '\x00'

/-- Whether a text holds a NUL. -/
def hasNul (s : String) : Bool := s.toList.contains nul

/-- A path that is a non-empty text without NUL. -/
def checkPath (p : Path) : Except RequestFault Unit :=
  match p.text? with
  | none => .error (.invalidPath p.text "Path is not valid UTF-8")
  | some s =>
    if s = "" then .error (.invalidPath s "Path cannot be empty")
    else if hasNul s then .error (.invalidPath s "Path contains null character")
    else .ok ()

/-- Arguments without NUL. -/
def checkArguments (args : List String) : Except RequestFault Unit :=
  if args.any hasNul then .error (.invalidArguments args "Arguments cannot contain null characters")
  else .ok ()

/-- A line and a column that are not zero. -/
def checkPosition (line column : UInt32) : Except RequestFault Unit :=
  if line = 0 || column = 0 then
    .error (.invalidPosition line column "lines and columns are 1-based")
  else .ok ()

/-- The value of a field that has to be given. -/
def require {α : Type} (field : String) : Option α → Except RequestFault α
  | some a => .ok a
  | none => .error (.missingField field)

end ClangLens.Request
