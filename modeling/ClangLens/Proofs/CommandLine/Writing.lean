import ClangLens.CommandLine.Reader

/-!
# Writing a command line

What an invocation says falls into items, each an option that is set or a value with a place of its
own. A layout orders the items in front of and behind the name of the subcommand and chooses how
each is written; arguments come last, behind two dashes. Options may stand anywhere their side
takes them, only the values with a place keep their order.
-/

namespace ClangLens

open CommandLine

/-! ## Items -/

/-- One thing that an invocation says. -/
inductive Item where
  | compileCommands (path : Path)
  | logLevel (level : String)
  | logFile (path : Path)
  | json
  | limit (n : Nat)
  | noMacros
  | patterns
  | file (path : Path)
  | line (n : UInt32)
  | column (n : UInt32)
deriving DecidableEq

namespace Item

/-- What an item is about. -/
def subject : Item → Subject
  | .compileCommands _ => .option .compileCommands
  | .logLevel _ => .option .logLevel
  | .logFile _ => .option .logFile
  | .json => .option .json
  | .limit _ => .option .limit
  | .noMacros => .option .noMacros
  | .patterns => .option .patterns
  | .file _ => .slot .file
  | .line _ => .slot .line
  | .column _ => .slot .column

/-- The value of an item as a word: a text as its bytes, a number in decimal digits. -/
def value? : Item → Option Word
  | .compileCommands path | .logFile path | .file path => some path.bytes
  | .logLevel level => some (Utf8.encode level)
  | .limit n => some (Utf8.encode (toString n))
  | .line n | .column n => some (Utf8.encode (toString n.toNat))
  | .json | .noMacros | .patterns => none

/-- The place of an item, if it has one of its own. -/
def slot? (item : Item) : Option Slot :=
  match item.subject with
  | .slot slot => some slot
  | _ => none

/-- Whether an item may stand at either side of the subcommand. -/
def isShared : Item → Bool
  | .compileCommands _ | .logLevel _ | .logFile _ | .json => true
  | _ => false

end Item

namespace Subcommand

/-- The name that is written. -/
def name : Subcommand → CommandName
  | .version => .version
  | .diagnostics .. => .diagnostics
  | .complete .. => .complete
  | .references .. => .references
  | .outline .. => .outline

/-- The word of the name. -/
def word : Subcommand → String
  | .version => "version"
  | .diagnostics .. => "diagnostics"
  | .complete .. => "complete"
  | .references .. => "references"
  | .outline .. => "outline"

theorem spelling_name (c : Subcommand) : c.name.spelling = c.word := by
  cases c <;> rfl

/-- What a subcommand says beside its name and arguments. -/
def items : Subcommand → List Item
  | .version => []
  | .diagnostics file _ | .references file _ | .outline file _ => [.file file]
  | .complete file line column limit noMacros patterns _ =>
    limit.toList.map .limit ++ (if noMacros then [.noMacros] else []) ++
      (if patterns then [.patterns] else []) ++ [.file file, .line line, .column column]

/-- The words that are handed on. -/
def args : Subcommand → List String
  | .version => []
  | .diagnostics _ args | .references _ args | .outline _ args => args
  | .complete _ _ _ _ _ _ args => args

/-- Numbers without a width of their own fit in 64 bits. -/
def Fits : Subcommand → Prop
  | .complete _ _ _ limit _ _ _ => ∀ n ∈ limit, n < UInt64.size
  | _ => True

end Subcommand

namespace Invocation

/-- The options that may stand at either side. -/
def shared (i : Invocation) : List Item :=
  i.compileCommands.toList.map .compileCommands ++ i.logLevel.toList.map .logLevel ++
    i.logFile.toList.map .logFile ++ (if i.json then [.json] else [])

/-- All that an invocation says beside the name of the subcommand and the arguments. -/
def items (i : Invocation) : List Item := i.shared ++ i.command.items

end Invocation

/-! ## Layouts -/

/-- An item as it is written: its value behind an equals sign or as a word of its own. -/
structure Piece where
  item : Item
  joined : Bool

namespace Piece

/-- What is written of an option behind the two dashes. -/
def name : OptionName → String
  | .compileCommands => "compile-commands"
  | .logLevel => "log-level"
  | .logFile => "log-file"
  | .json => "json"
  | .limit => "limit"
  | .noMacros => "no-macros"
  | .patterns => "patterns"
  | .help => "help"
  | .version => "version"

/-- An option by its name. -/
def flag (o : OptionName) : Word := dash :: dash :: Utf8.encode (name o)

/-- The byte of an equals sign. -/
def equalsSign : UInt8 := 61

/-- The words of a piece. -/
def words (p : Piece) : List Word :=
  match p.item.subject, p.item.value? with
  | .option o, some v => if p.joined then [flag o ++ equalsSign :: v] else [flag o, v]
  | .option o, none => [flag o]
  | _, v => v.toList

/-- No value is empty, and one that looks like an option stands behind an equals sign. -/
def Writable (p : Piece) : Prop :=
  ∀ v ∈ p.item.value?, v ≠ [] ∧ (v.head? = some dash → p.joined ∧ p.item.slot? = none)

instance (p : Piece) : Decidable p.Writable := inferInstanceAs (Decidable (∀ v ∈ p.item.value?, _))

end Piece

/-- A way to write an invocation. -/
structure Layout (i : Invocation) where
  front : List Piece
  behind : List Piece
  /-- Everything is written once. -/
  items : ((front ++ behind).map Piece.item).Perm i.items
  /-- Options of the subcommand and values with a place stand behind its name. -/
  shared : ∀ p ∈ front, p.item.isShared
  /-- Values with a place stand in their order. -/
  ordered : (behind.map Piece.item).filterMap Item.slot? = i.items.filterMap Item.slot?
  writable : ∀ p ∈ front ++ behind, p.Writable

/-- Arguments behind two dashes, if there are any. -/
def argumentWords (args : List String) : List Word :=
  if args = [] then [] else [dash, dash] :: args.map Utf8.encode

/-- The words of a layout. -/
def Layout.words {i : Invocation} (l : Layout i) : List Word :=
  l.front.flatMap Piece.words ++ Utf8.encode i.command.word ::
    (l.behind.flatMap Piece.words ++ argumentWords i.command.args)

end ClangLens
