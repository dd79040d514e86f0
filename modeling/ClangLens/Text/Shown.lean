import ClangLens.Text.Quoted

/-!
# Values shown by their structure

How a value is shown for a reader who wants to see its parts: the name of its constructor, then its
fields by name or by place. Types say which `Shown` they are; the spelling of braces, commas and
quotes is `Shown.render` alone.
-/

namespace ClangLens

/-- The structure of a value, as far as it is shown. -/
inductive Shown where
  /-- A number or a constructor without fields. -/
  | word (spelling : String)
  /-- A text, in quotes. -/
  | text (s : String)
  /-- A byte string, in quotes. -/
  | bytes (b : Bytes)
  | list (items : List Shown)
  /-- A constructor whose fields have places. -/
  | tuple (name : String) (fields : List Shown)
  /-- A constructor whose fields have names. -/
  | record (name : String) (fields : List (String × Shown))

namespace Shown

/-- A number. -/
def nat (n : Nat) : Shown := .word (toString n)

/-- A truth value. -/
def bool (b : Bool) : Shown := .word (if b then "true" else "false")

/-- A value that may be missing. -/
def option : Option Shown → Shown
  | none => .word "None"
  | some s => .tuple "Some" [s]

/-- Texts with a comma between each two. -/
def commas (parts : List String) : String := String.intercalate ", " parts

mutual

/-- The text of a shown value. -/
def render : Shown → String
  | .word s => s
  | .text s => Quoted.text s
  | .bytes b => Quoted.bytes b
  | .list items => "[" ++ commas (renderAll items) ++ "]"
  | .tuple name fields => name ++ "(" ++ commas (renderAll fields) ++ ")"
  | .record name fields => name ++ " \x7b " ++ commas (renderFields fields) ++ " \x7d"

/-- The texts of several values. -/
def renderAll : List Shown → List String
  | [] => []
  | s :: rest => s.render :: renderAll rest

/-- The texts of named fields. -/
def renderFields : List (String × Shown) → List String
  | [] => []
  | (name, s) :: rest => (name ++ ": " ++ s.render) :: renderFields rest

end

end Shown

end ClangLens
