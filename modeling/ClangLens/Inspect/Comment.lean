import ClangLens.Codes.Comment
import ClangLens.Foreign.Text

/-!
# Documentation comments

The tree of a documentation comment. What can be asked of a node depends on its kind; a node of kind
null counts as missing.
-/

namespace ClangLens.Comment

open Dialogue

def kind (c : Comment) : Dialogue (Coded CommentKind) := askCode (.commentKind c)

/-- A node, unless it is missing or null. -/
def present? : Option Comment → Dialogue (Option Comment)
  | none => return none
  | some c => do return if (← c.kind) = .named .null then none else some c

def numChildren (c : Comment) : Dialogue UInt32 := askNumber (.commentChildren c)

def child? (c : Comment) (i : UInt32) : Dialogue (Option Comment) :=
  atIndex c.numChildren i do present? (← ask (.commentChild c i))

/-- The children, without those that are missing or null. -/
def children (c : Comment) : Dialogue (List Comment) := do
  collect (← c.numChildren) c.child?

def isWhitespace (c : Comment) : Dialogue Bool := askTruth (.commentIsWhitespace c)

/-- What a question answers for a node of one kind, and nothing for others. -/
def ofKind {α : Type} (c : Comment) (kind : CommentKind) (d : Dialogue (Option α)) :
    Dialogue (Option α) := do
  if (← c.kind) = .named kind then d else return none

/-- The text of a text node. -/
def text? (c : Comment) : Dialogue (Option String) :=
  c.ofKind .text do return some (← askText (.commentText c))

/-- The name of an inline or block command. -/
def commandName? (c : Comment) : Dialogue (Option String) := do
  match ← c.kind with
  | .named .inlineCommand => askText? (.inlineCommandName c)
  | .named .blockCommand | .named .paramCommand | .named .tParamCommand =>
    askText? (.blockCommandName c)
  | _ => return none

/-- The parameter that a parameter command is about. -/
def paramName? (c : Comment) : Dialogue (Option String) :=
  c.ofKind .paramCommand (askText? (.paramName c))

/-- How an inline command is rendered. -/
def renderKind? (c : Comment) : Dialogue (Option (Coded RenderKind)) :=
  c.ofKind .inlineCommand do return some (← askCode (.renderKind c))

/-- How many arguments an inline command has. -/
def numArgs (c : Comment) : Dialogue UInt32 := do
  if (← c.kind) = .named .inlineCommand then askNumber (.inlineArguments c) else return 0

def argText? (c : Comment) (i : UInt32) : Dialogue (Option String) :=
  atIndex c.numArgs i do return some (← askText (.inlineArgument c i))

/-- The whole comment as HTML. -/
def html? (c : Comment) : Dialogue (Option String) :=
  c.ofKind .fullComment do return some (← askText (.commentHtml c))

/-- The whole comment as XML. -/
def xml? (c : Comment) : Dialogue (Option String) :=
  c.ofKind .fullComment do return some (← askText (.commentXml c))

def shown (c : Comment) : Dialogue Shown := do
  let kind ← c.kind
  return .record "Comment"
    [("kind", kind.shown), ("num_children", .nat (← c.numChildren).toNat)]

end ClangLens.Comment
