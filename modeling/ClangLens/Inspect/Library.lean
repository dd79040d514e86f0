import ClangLens.Codes.Cursor
import ClangLens.Foreign.Text

/-!
# Loading the library

The library is loaded at most once at a time. Loading it again while it is loaded is refused without
asking; dropping it makes room for the next time, whatever unloading says.
-/

namespace ClangLens

/-- Whether the library is loaded. -/
inductive Loading where
  | idle
  | loaded
deriving DecidableEq

namespace Loading

/-- Loads the library. -/
def load (logged : Bool) : Loading → Dialogue (Except Failure Unit × Loading)
  | .loaded => return (.error .alreadyLoaded, .loaded)
  | .idle => do
    match ← Dialogue.ask .load with
    | .ok () =>
      Dialogue.logText logged .version
      return (.ok (), .loaded)
    | .error reason => return (.error (.libraryLoad reason), .idle)

/-- Drops the library, which has to be loaded. -/
def drop : Dialogue Loading := do
  let _ ← Dialogue.ask .unload
  return .idle

end Loading

/-- What the library calls itself. -/
def libraryVersion : Dialogue String := Dialogue.askText .version

/-- The display options the library proposes. -/
def DisplayOptions.proposed : Dialogue DisplayOptions := do
  return ⟨(← Dialogue.askNumber .defaultDisplayOptions).toBitVec⟩

/-- The completion flags the library proposes. -/
def CompleteFlags.proposed : Dialogue CompleteFlags := do
  return ⟨(← Dialogue.askNumber .defaultCompleteFlags).toBitVec⟩

/-- The parse flags the library proposes for files that are being edited. -/
def ParseFlags.forEditing : Dialogue ParseFlags := do
  return ⟨(← Dialogue.askNumber .defaultEditingFlags).toBitVec⟩

/-- Whether the library counts a kind to a group. -/
def CursorKind.isIn (kind : Coded CursorKind) (group : KindGroup) : Dialogue Bool :=
  Dialogue.askTruth (.kindIn group kind.code)

end ClangLens
