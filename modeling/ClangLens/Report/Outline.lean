import ClangLens.Report.Basic

/-!
# The declarations of a file

A forest of declarations. As text, a line for each, below the line of what it is declared in and two
columns further in.
-/

namespace ClangLens

inductive OutlineEntry where
  | mk (name kind : String) (span : Option FileSpan) (isDefinition : Bool)
      (briefComment : Option String) (children : List OutlineEntry)
deriving Inhabited

namespace OutlineEntry

mutual

/-- Nothing is derived through the list of an entry's own entries. -/
def decEq : (e e' : OutlineEntry) → Decidable (e = e')
  | .mk name kind span isDefinition comment children,
    .mk name' kind' span' isDefinition' comment' children' =>
    haveI := decEqAll children children'
    decidable_of_iff (name = name' ∧ kind = kind' ∧ span = span' ∧
      isDefinition = isDefinition' ∧ comment = comment' ∧ children = children') (by simp)

def decEqAll : (entries entries' : List OutlineEntry) → Decidable (entries = entries')
  | [], [] => isTrue rfl
  | [], _ :: _ => isFalse (by simp)
  | _ :: _, [] => isFalse (by simp)
  | e :: rest, e' :: rest' =>
    haveI := decEq e e'
    haveI := decEqAll rest rest'
    decidable_of_iff (e = e' ∧ rest = rest') (by simp)

end

instance : DecidableEq OutlineEntry := decEq

end OutlineEntry

structure OutlineReport where
  file : Path
  entries : List OutlineEntry
deriving DecidableEq

namespace OutlineEntry

/-- The line of a declaration at a depth. -/
def line (depth : Nat) : OutlineEntry → String
  | .mk name kind span _ comment _ =>
    String.ofList (List.replicate (2 * depth) ' ') ++ name ++ " [" ++ kind ++ "] "
      ++ FileSpan.textOrUnknown span ++ Report.comment comment ++ "\n"

mutual

/-- The lines of a declaration and of what is declared in it. -/
def text (depth : Nat) : OutlineEntry → String
  | .mk name kind span isDefinition comment children =>
    line depth (.mk name kind span isDefinition comment children) ++ textAll (depth + 1) children

/-- The lines of several declarations. -/
def textAll (depth : Nat) : List OutlineEntry → String
  | [] => ""
  | e :: rest => e.text depth ++ textAll depth rest

end

mutual

def json : OutlineEntry → Except Unwritable Json
  | .mk name kind span isDefinition comment children => do
    let span ← FileSpan.jsonOption span
    let inner ← jsonAll children
    let below := if inner.isEmpty then [] else [("children", Json.array inner)]
    return .object <|
      [("name", .string name), ("kind", .string kind), ("span", span),
        ("is_definition", .bool isDefinition), ("brief_comment", .option .string comment)] ++ below

/-- The JSON values of several declarations. -/
def jsonAll : List OutlineEntry → Except Unwritable (List Json)
  | [] => .ok []
  | e :: rest => do
    let first ← e.json
    return first :: (← jsonAll rest)

end

end OutlineEntry

instance : Report OutlineReport where
  text r := OutlineEntry.textAll 0 r.entries
  json r := do
    let file ← r.file.json
    return .object [("file", file), ("symbols", .array (← OutlineEntry.jsonAll r.entries))]

end ClangLens
