import ClangLens.Codes.Completion
import ClangLens.Foreign.Text

/-!
# Completion strings

What a completion result would insert, in pieces with a kind each. An optional piece is a completion
string of its own. The text of a completion string leaves out what is only informative and puts
optional parts in brackets.
-/

namespace ClangLens.Phrase

open Dialogue

def numChunks (p : Phrase) : Dialogue UInt32 := askNumber (.chunks p)

/-- The kind of a piece whose index is known to be below the count. -/
def kindAt (p : Phrase) (i : UInt32) : Dialogue (Coded ChunkKind) := askCode (.chunkKind p i)

/-- The text of a piece whose index is known to be below the count. -/
def textAt (p : Phrase) (i : UInt32) : Dialogue String := askText (.chunkText p i)

def chunkKind? (p : Phrase) (i : UInt32) : Dialogue (Option (Coded ChunkKind)) :=
  atIndex p.numChunks i do return some (← p.kindAt i)

def chunkText? (p : Phrase) (i : UInt32) : Dialogue (Option String) :=
  atIndex p.numChunks i do return some (← p.textAt i)

/-- The completion string that a piece is. -/
def chunkPhrase? (p : Phrase) (i : UInt32) : Dialogue (Option Phrase) :=
  atIndex p.numChunks i (ask (.chunkPhrase p i))

/-- A piece, by an index that was below the count when the pieces were gone through. -/
structure Chunk where
  phrase : Phrase
  index : UInt32
deriving DecidableEq

namespace Chunk

def kind (c : Chunk) : Dialogue (Coded ChunkKind) := c.phrase.kindAt c.index

def text (c : Chunk) : Dialogue String := c.phrase.textAt c.index

/-- The completion string that a piece is. -/
def nested? (c : Chunk) : Dialogue (Option Phrase) := c.phrase.chunkPhrase? c.index

end Chunk

def chunks (p : Phrase) : Dialogue (List Chunk) := do
  collect (← p.numChunks) fun i => return some ⟨p, i⟩

/-- The text of the first piece of a kind. -/
def firstOfKind? (p : Phrase) (kind : ChunkKind) : Dialogue (Option String) := do
  first (← p.numChunks) fun i => do
    if (← p.kindAt i) = .named kind then return some (← p.textAt i) else return none

/-- The text that a user types to choose the result. -/
def typedText? (p : Phrase) : Dialogue (Option String) := p.firstOfKind? .typedText

/-- What the library thinks of a result: the lower, the better. -/
def priority (p : Phrase) : Dialogue UInt32 := askNumber (.priority p)

def availability (p : Phrase) : Dialogue (Coded Availability) := askCode (.availability p)

def briefComment? (p : Phrase) : Dialogue (Option String) := askText? (.phraseBriefComment p)

def numAnnotations (p : Phrase) : Dialogue UInt32 := askNumber (.annotations p)

def annotation? (p : Phrase) (i : UInt32) : Dialogue (Option String) :=
  atIndex p.numAnnotations i do return some (← askText (.annotationText p i))

/-- The entity that a result belongs to. -/
def parent? (p : Phrase) : Dialogue (Option String) := askText? (.phraseParent p)

/-- The text of a completion string nested no deeper than `depth`. -/
def text : Nat → Phrase → Dialogue String
  | 0, _ => .giveUp
  | depth + 1, p => do
    let pieces ← collect (← p.numChunks) fun i => do
      match ← p.kindAt i with
      | .named .optional =>
        match ← p.chunkPhrase? i with
        | none => return none
        | some nested => return some ("[" ++ (← text depth nested) ++ "]")
      | .named .informative | .named .resultType => return none
      | _ => return some (← p.textAt i)
    return String.join pieces

def shown (p : Phrase) : Dialogue Shown := do
  let typed ← p.typedText?
  return .record "CompletionString"
    [("typed_text", .option (typed.map .text)), ("priority", .nat (← p.priority).toNat)]

end ClangLens.Phrase
