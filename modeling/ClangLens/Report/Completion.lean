import ClangLens.Inspect.Completions
import ClangLens.Report.Basic

/-!
# Code completion at a place

As text, how many results there are, what encloses the place and what fits there, and a line for each
result.
-/

namespace ClangLens

structure CompletionEntry where
  /-- What a user types to choose the result. -/
  typedText : String
  /-- Everything the result would insert, optional parts in brackets. -/
  text : String
  resultType : Option String
  kind : String
  priority : UInt32
  availability : String
  briefComment : Option String
deriving DecidableEq

structure CompletionReport where
  file : Path
  line : UInt32
  column : UInt32
  /-- How many results the library counts. -/
  total : UInt32
  contexts : String
  container : CompletionContainer
  containerUsr : Option String
  entries : List CompletionEntry
deriving DecidableEq

namespace CompletionEntry

/-- A text with blanks in front of it up to a width. -/
def padLeft (width : Nat) (s : String) : String :=
  String.ofList (List.replicate (width - s.length) ' ') ++ s

/-- One line for a result. -/
def line (e : CompletionEntry) : String :=
  padLeft 6 (toString e.priority.toNat) ++ "  " ++ e.text
    ++ Report.around " -> " "" e.resultType ++ "  [" ++ e.kind ++ "]"
    ++ Report.comment e.briefComment ++ "\n"

def json (e : CompletionEntry) : Json :=
  .object
    [("typed_text", .string e.typedText), ("text", .string e.text),
      ("result_type", .option .string e.resultType), ("kind", .string e.kind),
      ("priority", .number e.priority.toNat), ("availability", .string e.availability),
      ("brief_comment", .option .string e.briefComment)]

end CompletionEntry

def CompletionContainer.json (c : CompletionContainer) : Json :=
  .object [("kind", .string c.kind.spelling), ("is_incomplete", .bool c.isIncomplete)]

namespace CompletionReport

/-- The line about what encloses the place. -/
def containerLine (r : CompletionReport) : String :=
  if r.container.exists then
    "container: " ++ r.container.kind.spelling ++ Report.around " (" ")" r.containerUsr
      ++ (if r.container.isIncomplete then " [incomplete]" else "") ++ "\n"
  else "container: none\n"

instance : Report CompletionReport where
  text r :=
    r.file.text ++ ":" ++ toString r.line.toNat ++ ":" ++ toString r.column.toNat ++ ": "
      ++ toString r.entries.length ++ " of " ++ toString r.total.toNat ++ " completions\n"
      ++ r.containerLine ++ "contexts: " ++ r.contexts ++ "\n"
      ++ String.join (r.entries.map CompletionEntry.line)
  json r := do
    return .object
      [("file", ← r.file.json), ("line", .number r.line.toNat), ("column", .number r.column.toNat),
        ("total", .number r.total.toNat), ("contexts", .string r.contexts),
        ("container", r.container.json), ("container_usr", .option .string r.containerUsr),
        ("completions", .array (r.entries.map CompletionEntry.json))]

end CompletionReport

end ClangLens
