import ClangLens.Codes.Cursor
import ClangLens.Foreign.Text

/-!
# Being called back

A visitor or a consumer is run inside a call of the library. When it panics, the panic is parked: the
library is told to stop, nothing of ours runs again in that call, and the panic comes out once the
call is over. What the visitor has gathered up to then is kept.
-/

namespace ClangLens

open Dialogue

/-- What comes of running a piece of code that may panic with a payload: the state it leaves, and
the panic or a value. -/
abbrev Outcome (σ π α : Type) := σ × Except π α

/-- Asked for each child of a cursor, with the child's parent. -/
abbrev Visitor (σ π : Type) := σ → Cursor → Cursor → Dialogue (Outcome σ π (Coded ChildVisit))

/-- The answer that ends a traversal. -/
def ChildVisit.stopCode : UInt32 := (Coded.named ChildVisit.stop).code

namespace Traversal

/-- Goes through a traversal in which a panic is parked. -/
def refuse {σ π : Type} (s : σ) (panic : π) : Traversal → Dialogue (Outcome σ π UInt32)
  | .finished _ => return (s, .error panic)
  | .child _ _ next => do
    ask (.answerVisit ChildVisit.stopCode)
    (next ChildVisit.stopCode).refuse s panic

/-- Goes through a traversal with a visitor. -/
def drive {σ π : Type} (visitor : Visitor σ π) (s : σ) : Traversal → Dialogue (Outcome σ π UInt32)
  | .finished broken => return (s, .ok broken)
  | .child cursor parent next => do
    let (s, outcome) ← visitor s cursor parent
    match outcome with
    | .ok visit =>
      ask (.answerVisit visit.code)
      (next visit.code).drive visitor s
    | .error panic =>
      ask (.answerVisit ChildVisit.stopCode)
      (next ChildVisit.stopCode).refuse s panic

end Traversal

/-- What the indexer is answered by. -/
structure Consumer (σ π : Type) where
  /-- Whether to stop. -/
  abortRequested : σ → Dialogue (Outcome σ π Bool)
  declaration : σ → DeclarationRecord → Dialogue (Outcome σ π Unit)
  reference : σ → ReferenceRecord → Dialogue (Outcome σ π Unit)

/-- A consumer that goes on and ignores everything. -/
def Consumer.silent {σ π : Type} : Consumer σ π where
  abortRequested s := return (s, .ok false)
  declaration s _ := return (s, .ok ())
  reference s _ := return (s, .ok ())

namespace IndexRun

/-- Goes through a run of the indexer in which a panic is parked. -/
def refuse {σ π : Type} (s : σ) (panic : π) : IndexRun → Dialogue (Outcome σ π UInt32)
  | .finished _ => return (s, .error panic)
  | .abortQuery next => do
    ask (.answerAbortQuery (truthCode true))
    (next (truthCode true)).refuse s panic
  | .declaration _ next => next.refuse s panic
  | .reference _ next => next.refuse s panic

/-- Goes through a run of the indexer with a consumer; reports that do not say of what are left
out. -/
def drive {σ π : Type} (consumer : Consumer σ π) (s : σ) :
    IndexRun → Dialogue (Outcome σ π UInt32)
  | .finished status => return (s, .ok status)
  | .abortQuery next => do
    let (s, outcome) ← consumer.abortRequested s
    match outcome with
    | .ok stop =>
      ask (.answerAbortQuery (truthCode stop))
      (next (truthCode stop)).drive consumer s
    | .error panic =>
      ask (.answerAbortQuery (truthCode true))
      (next (truthCode true)).refuse s panic
  | .declaration none next => next.drive consumer s
  | .declaration (some record) next => do
    let (s, outcome) ← consumer.declaration s record
    match outcome with
    | .ok () => next.drive consumer s
    | .error panic => next.refuse s panic
  | .reference none next => next.drive consumer s
  | .reference (some record) next => do
    let (s, outcome) ← consumer.reference s record
    match outcome with
    | .ok () => next.drive consumer s
    | .error panic => next.refuse s panic

end IndexRun

end ClangLens
