import ClangLens.Text.Shown

/-!
# Named numbers

The library under inspection answers with 32-bit codes. A code that its table names becomes a value
of a type of our own; any other number is kept as it is, so nothing is lost by reading a code and
writing it back. One table per type gives both directions and the spelling.
-/

namespace ClangLens

/-- One row of a code table. -/
structure CodeEntry (α : Type) where
  value : α
  code : UInt32
  name : String

/-- The codes that have a name. -/
class CodeTable (α : Type) where
  /-- The name of the whole type, shown for codes without one. -/
  typeName : String
  /-- What stands before the equals sign of a spelling. -/
  label : String
  /-- The rows, in ascending order of their codes. -/
  entries : List (CodeEntry α)

/-- A code: one with a name, or any other number. -/
inductive Coded (α : Type) where
  | named (value : α)
  | unknown (code : UInt32)
deriving DecidableEq

namespace Coded

variable {α : Type} [CodeTable α] [DecidableEq α]

/-- The row of a value. -/
def row? (value : α) : Option (CodeEntry α) :=
  (CodeTable.entries (α := α)).find? fun e => e.value = value

/-- Every named value, in table order. -/
def all : List (Coded α) := (CodeTable.entries (α := α)).map fun e => .named e.value

/-- What a number means. -/
def ofCode (code : UInt32) : Coded α :=
  match (CodeTable.entries (α := α)).find? fun e => e.code = code with
  | some e => .named e.value
  | none => .unknown code

/-- The number of a code. -/
def code : Coded α → UInt32
  | .named value => ((row? value).map CodeEntry.code).getD 0
  | .unknown n => n

/-- Whether a code has a name. -/
def isNamed : Coded α → Bool
  | .named _ => true
  | .unknown _ => false

/-- The name in the table. -/
def nameOf (value : α) : String := ((row? value).map CodeEntry.name).getD ""

/-- The spelling of a code: `Label=Name`, or the type and the number. -/
def spelling : Coded α → String
  | .named value => CodeTable.label α ++ "=" ++ nameOf value
  | .unknown n => CodeTable.typeName α ++ " unknown " ++ toString n.toNat

/-- The structure of a code. -/
def shown : Coded α → Shown
  | .named value => .word (nameOf value)
  | .unknown n => .tuple "Unknown" [.nat n.toNat]

end Coded

end ClangLens
