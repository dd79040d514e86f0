import ClangLens.Command.Basic
import ClangLens.Inspect.Library
import ClangLens.Report.Outline

/-!
# Reporting an outline

The declarations of the main file, and below those of scopes the declarations in them.
-/

namespace ClangLens.Command

open Dialogue

/-- Whether a cursor is listed in an outline. -/
def isListed (c : Cursor) (kind : Coded CursorKind) : Dialogue Bool := do
  if !(← (← c.location).isInMainFile) then return false
  if !(← CursorKind.isIn kind .declaration) then return false
  return kind ≠ .named .cxxAccessSpecifier

/-- Whether what is declared in something of a kind is listed below it. -/
def isScope : Coded CursorKind → Bool
  | .named kind => kind.isScope
  | .unknown _ => false

/-- The outline of what is below a cursor, no deeper than `depth`. -/
def outlineOf : Nat → Cursor → Dialogue (List OutlineEntry)
  | 0, _ => .giveUp
  | depth + 1, parent =>
    parent.foldChildren (fun entries c => do
      let kind ← c.kind
      if ← isListed c kind then
        let name ← c.displayName
        let span ← (← c.extent).span?
        let isDefinition ← c.isDefinition
        let comment ← c.briefComment?
        let children ← if isScope kind then outlineOf depth c else pure []
        return entries ++ [.mk name kind.spelling span isDefinition comment children]
      else return entries) []

/-- The outline of a file. Scopes nested deeper than `depth` are not followed. -/
def outline (depth : Nat) (around : Surroundings) (file : Path) (args : List String) :
    Dialogue (Except Failure OutlineReport) :=
  onFile around file args fun _ unit => do
    return .ok ⟨file, ← outlineOf depth (← unit.cursor)⟩

end ClangLens.Command
