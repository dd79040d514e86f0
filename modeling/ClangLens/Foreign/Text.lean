import ClangLens.Foreign.Dialogue

/-!
# Texts of the library

A text of the library is copied and released before anything else is asked. Its bytes end at the
first NUL, need not be text, and may be missing; where an empty text means that there is none, it is
read as such.
-/

namespace ClangLens

/-- The text that foreign bytes spell: those in front of the first NUL, stray ones replaced. -/
def ForeignString.read : Option Bytes → String
  | none => ""
  | some bytes => Utf8.lossy (bytes.takeWhile (· ≠ 0))

/-- A text, if it is not empty. -/
def nonEmpty (s : String) : Option String := if s = "" then none else some s

/-- A text that stays with the library, if there is one. -/
def ForeignString.borrowed (bytes : Option Bytes) : Option String :=
  nonEmpty (ForeignString.read bytes)

namespace Dialogue

/-- Copies a text and releases it. -/
def takeString (s : Option ForeignString) : Dialogue String := do
  let bytes ← ask (.stringBytes s)
  ask (.release (.string s))
  return ForeignString.read bytes

/-- The answer to a question for a text. -/
def askText (q : TextQuestion) : Dialogue String := do takeString (← ask (.text q))

/-- The answer to a question for a text, if it is not empty. -/
def askText? (q : TextQuestion) : Dialogue (Option String) := do return nonEmpty (← askText q)

/-- Asks for a text that only goes into the log, if the log takes down such details. -/
def logText (logged : Bool) (q : TextQuestion) : Dialogue Unit := do
  if logged then
    let _ ← askText q
    return ()
  else return ()

/-- The answer to a question for a number. -/
def askNumber (q : NumberQuestion) : Dialogue UInt32 := ask (.number q)

/-- The answer to a question that a number other than zero says yes to. -/
def askTruth (q : NumberQuestion) : Dialogue Bool := do return (← askNumber q) ≠ 0

/-- The answer to a question for a code. -/
def askCode {α : Type} [CodeTable α] [DecidableEq α] (q : NumberQuestion) :
    Dialogue (Coded α) := do
  return .ofCode (← askNumber q)

end Dialogue

end ClangLens
