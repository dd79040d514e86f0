import ClangLens.Command.Basic
import ClangLens.Report.References

/-!
# Reporting references

The references the indexer reports in the main file to entities it names.
-/

namespace ClangLens.Command

open Dialogue

/-- What is shown for an entity without a name. -/
def anonymous : String := "<anonymous>"

/-- What the indexer reports for references: local symbols too, and no warnings. -/
def referenceFlags : IndexingFlags :=
  IndexingFlags.suppressWarnings.union IndexingFlags.localSymbols

/-- The entry of a reference, if it is in the main file and says to what. -/
def referenceEntry? (r : ReferenceRecord) : Dialogue (Option ReferenceEntry) := do
  match r.entity with
  | none => return none
  | some entity =>
    let location ← r.place.source
    if ← location.isInMainFile then
      let span ← location.pointSpan?
      return some
        ⟨entity.name?.getD anonymous, entity.usr?, entity.entityKind.spelling, r.roles.spelling,
          span, r.parent.bind EntityRecord.name?⟩
    else return none

/-- Gathers the entries of references. -/
def referenceCollector : Consumer (List ReferenceEntry) Empty :=
  { Consumer.silent with
    reference := fun found r => do
      return (found ++ (← referenceEntry? r).toList, .ok ()) }

/-- The references of a unit. -/
def referencesOf (logged : Bool) (file : Path) (index : Index.Pointer) (unit : TranslationUnit) :
    Dialogue (Except Failure ReferencesReport) := do
  let action ← IndexAction.create index
  let (found, outcome) ←
    releasing (.action action)
      (IndexAction.index logged action unit referenceFlags referenceCollector [])
  match outcome with
  | .ok (.ok ()) => return .ok ⟨file, ReferenceEntry.sort found⟩
  | .ok (.error failure) => return .error failure

/-- The references of a file. -/
def references (around : Surroundings) (file : Path) (args : List String) :
    Dialogue (Except Failure ReferencesReport) :=
  onFile around file args (referencesOf around.logged file)

end ClangLens.Command
