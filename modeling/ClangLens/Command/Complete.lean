import ClangLens.Command.Basic
import ClangLens.Report.Completion

/-!
# Reporting completions

The results of code completion at a place, up to a limit. Results without a completion string are
left out and do not count against the limit.
-/

namespace ClangLens

/-- What a user asks for. -/
structure CompleteOptions where
  file : Path
  line : UInt32
  column : UInt32
  /-- How many results to show at most. -/
  limit : Option Nat
  macros : Bool
  patterns : Bool
  args : List String
deriving DecidableEq

/-- The flags for what a user asks for. -/
def CompleteOptions.flags (o : CompleteOptions) : CompleteFlags :=
  (CompleteRequest.defaultFlags.set CompleteFlags.macros o.macros).set CompleteFlags.codePatterns
    o.patterns

namespace Command

open Dialogue

/-- The entry of a result with a completion string. -/
def completionEntry (depth : Nat) (kind : Coded CursorKind) (p : Phrase) :
    Dialogue CompletionEntry := do
  let resultType ← p.firstOfKind? .resultType
  let typed ← p.typedText?
  let text ← p.text depth
  let priority ← p.priority
  let availability ← p.availability
  let comment ← p.briefComment?
  return ⟨typed.getD "", text, resultType, kind.spelling, priority, availability.spelling, comment⟩

/-- The entries of results, as many as the limit allows. -/
def completionEntries (depth : Nat) :
    Option Nat → List CompletionRecord → Dialogue (List CompletionEntry)
  | _, [] => return []
  | some 0, _ => return []
  | limit, r :: rest => do
    match r.phrase with
    | none => completionEntries depth limit rest
    | some p =>
      let entry ← completionEntry depth r.cursorKind p
      return entry :: (← completionEntries depth (limit.map (· - 1)) rest)

/-- The report on a set of results. -/
def completionsOf (depth : Nat) (o : CompleteOptions) (set : Completions) :
    Dialogue CompletionReport := do
  let entries ← completionEntries depth o.limit (← set.results)
  let total ← set.numResults
  let contexts ← set.contexts
  let container ← set.container
  let usr ← set.containerUsr?
  return ⟨o.file, o.line, o.column, total, contexts.spelling, container, usr, entries⟩

/-- The request to complete what a user asks for. -/
def completeRequest (o : CompleteOptions) : Except RequestFault CompleteRequest :=
  CompleteRequest.ofSteps [.file o.file, .position o.line o.column, .flags o.flags]

/-- The completions at a place. Completion strings nested deeper than `depth` are not followed. -/
def complete (depth : Nat) (around : Surroundings) (o : CompleteOptions) :
    Dialogue (Except Failure CompletionReport) :=
  onFile around o.file o.args fun _ unit => do
    match completeRequest o with
    | .error fault => return .error (.request fault)
    | .ok request =>
      match ← unit.complete request with
      | .error failure => return .error failure
      | .ok set => do
        return .ok (← releasing (.completions set) (completionsOf depth o set))

end Command

end ClangLens
