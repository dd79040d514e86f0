import ClangLens.Foreign.Handle
import ClangLens.Foreign.Marshal

/-!
# What a scripted library logs

The calls that hand something out, release something or change something, in order, and the few
others whose arguments would show nowhere else. Texts are counted and not logged.
-/

namespace ClangLens.Script

inductive LoggedCall where
  | createIndex (excludeFromPch displayDiagnostics : UInt32) (handedOut : Index)
  | setGlobalOptions (options : UInt32)
  | parse (source : ForeignText) (args : ForeignArray ForeignText)
      (unsaved : ForeignArray UnsavedRecord) (flags : UInt32)
  /-- Parsing handed out a unit. -/
  | unit (unit : TranslationUnit)
  | reparse (unit : TranslationUnit) (unsaved : ForeignArray UnsavedRecord) (options : UInt32)
  | save (path : ForeignText) (options : UInt32)
  | locationInFile (file : File) (line column : UInt32)
  | diagnostic (diagnostic : Diagnostic)
  | formatDiagnostic (options : UInt32)
  | complete (file : ForeignText) (line column : UInt32) (unsaved : ForeignArray UnsavedRecord)
      (flags : UInt32)
  /-- Completion handed out a set of results. -/
  | completions (set : Completions)
  | sortResults (count : UInt32)
  | createAction (action : IndexAction)
  | index (flags : UInt32)
  /-- The indexer was told to stop. -/
  | aborted
  | release (resource : Resource)
deriving DecidableEq

end ClangLens.Script
