import ClangLens.Codes.Cursor
import ClangLens.Inspect.Diagnostic
import ClangLens.Inspect.Phrase

/-!
# Results of code completion

What can be asked of a set of completion results. The set counts its results whether or not it has
an array of them; what is seen of them is the array.
-/

namespace ClangLens

open Dialogue

namespace CompletionArray

/-- The results that can be seen. -/
def toList (a : CompletionArray) : List CompletionRecord :=
  match a.results with
  | none => []
  | some results => results.toList

end CompletionArray

namespace CompletionRecord

/-- What a result stands for. -/
def cursorKind (r : CompletionRecord) : Coded CursorKind := .ofCode r.kind

def shown (r : CompletionRecord) : Dialogue Shown := do
  let phrase ←
    match r.phrase with
    | none => pure none
    | some p => do pure (some (← p.shown))
  return .record "CompletionResult"
    [("cursor_kind", r.cursorKind.shown), ("completion_string", .option phrase)]

end CompletionRecord

/-- What encloses the completion point. -/
structure CompletionContainer where
  kind : Coded CursorKind
  /-- Whether the library knows only a part of it. -/
  isIncomplete : Bool
deriving DecidableEq

/-- Whether there is a container; one kind says that there is none. -/
def CompletionContainer.exists (c : CompletionContainer) : Bool := c.kind ≠ .named .invalidCode

namespace Completions

def numResults (s : Completions) : Dialogue UInt32 := do return (← ask (.results s)).count

def results (s : Completions) : Dialogue (List CompletionRecord) := do
  return (← ask (.results s)).toList

/-- Puts the results in the order the library thinks best. -/
def sort (s : Completions) : Dialogue Unit := do
  let array ← ask (.results s)
  if 0 < array.count then
    ask (.sortResults (if array.results.isSome then some s else none) array.count)

def numFixIts (s : Completions) (i : UInt32) : Dialogue UInt32 := do
  if i < (← s.numResults) then askNumber (.completionFixIts s i) else return 0

/-- A fix-it that a result needs. -/
def fixIt? (s : Completions) (i j : UInt32) : Dialogue (Option FixIt) :=
  atIndex (s.numFixIts i) j do return some (← FixIt.taken (.completion s i) j)

def numDiagnostics (s : Completions) : Dialogue UInt32 := askNumber (.completionDiagnostics s)

/-- A diagnostic of the completion run, which is ours to release. -/
def diagnostic? (s : Completions) (i : UInt32) : Dialogue (Option Diagnostic) :=
  atIndex s.numDiagnostics i (ask (.diagnostic (.completions s) i))

/-- What is made of each diagnostic of the completion run in turn. -/
def mapDiagnostics {α : Type} (s : Completions) (f : Diagnostic → Dialogue α) :
    Dialogue (List α) := do
  collect (← s.numDiagnostics) fun i => do Diagnostic.using? f (← s.diagnostic? i)

/-- What kinds of entity fit at the completion point. -/
def contexts (s : Completions) : Dialogue CompletionContexts := do
  return ⟨(← ask (.contexts s)).toBitVec⟩

def container (s : Completions) : Dialogue CompletionContainer := do
  let answer ← ask (.container s)
  return ⟨.ofCode answer.kind, answer.incomplete ≠ 0⟩

def containerUsr? (s : Completions) : Dialogue (Option String) := askText? (.containerUsr s)

def objCSelector? (s : Completions) : Dialogue (Option String) := askText? (.objCSelector s)

def shown (s : Completions) : Dialogue Shown := do
  return .record "CodeCompleteResults" [("num_results", .nat (← s.numResults).toNat)]

end Completions

end ClangLens
