import ClangLens.Inspect.Callback
import ClangLens.Inspect.Comment
import ClangLens.Inspect.Location

/-!
# Nodes of the syntax tree

What can be asked of a cursor, and visits to the cursors below it.
-/

namespace ClangLens.Cursor

open Dialogue

/-- A cursor, unless it is null. -/
def present? (q : CursorQuestion) : Dialogue (Option Cursor) := do
  let c ← ask (.cursor q)
  return if ← askTruth (.cursorIsNull c) then none else some c

def kind (c : Cursor) : Dialogue (Coded CursorKind) := askCode (.cursorKind c)

def spelling (c : Cursor) : Dialogue String := askText (.cursorSpelling c)

def displayName (c : Cursor) : Dialogue String := askText (.cursorDisplayName c)

/-- What names the same entity in every unit. -/
def usr? (c : Cursor) : Dialogue (Option String) := askText? (.cursorUsr c)

def location (c : Cursor) : Dialogue Location := ask (.location (.ofCursor c))

def extent (c : Cursor) : Dialogue Extent := ask (.extent (.ofCursor c))

def semanticParent? (c : Cursor) : Dialogue (Option Cursor) := present? (.semanticParent c)

def lexicalParent? (c : Cursor) : Dialogue (Option Cursor) := present? (.lexicalParent c)

/-- What a reference refers to. -/
def referenced? (c : Cursor) : Dialogue (Option Cursor) := present? (.referenced c)

def definition? (c : Cursor) : Dialogue (Option Cursor) := present? (.definition c)

def isDefinition (c : Cursor) : Dialogue Bool := askTruth (.cursorIsDefinition c)

/-- Whether the library says that two cursors are the same. -/
def same (c d : Cursor) : Dialogue Bool := askTruth (.cursorsEqual c d)

def rawComment? (c : Cursor) : Dialogue (Option String) := askText? (.cursorRawComment c)

def briefComment? (c : Cursor) : Dialogue (Option String) := askText? (.cursorBriefComment c)

/-- The documentation comment of what a cursor stands for. -/
def comment? (c : Cursor) : Dialogue (Option Comment) := do
  Comment.present? (← ask (.parsedComment c))

/-- Visits what is below a cursor; the outcome says whether the visit was broken off. -/
def visit {σ π : Type} (c : Cursor) (visitor : Visitor σ π) (s : σ) :
    Dialogue (Outcome σ π Bool) := do
  let traversal ← ask (.visitChildren c)
  let (s, outcome) ← traversal.drive visitor s
  return (s, outcome.map fun broken => broken ≠ 0)

/-- Takes up the children of a cursor one by one. -/
def foldChildren {σ : Type} (c : Cursor) (f : σ → Cursor → Dialogue σ) (s : σ) : Dialogue σ := do
  let visitor : Visitor σ Empty := fun s child _ => do return (← f s child, .ok (.named .next))
  return (← c.visit visitor s).1

def children (c : Cursor) : Dialogue (List Cursor) :=
  c.foldChildren (fun found child => return found ++ [child]) []

def shown (c : Cursor) : Dialogue Shown := do
  let kind ← c.kind
  return .record "Cursor" [("kind", kind.shown), ("spelling", .text (← c.spelling))]

end ClangLens.Cursor
