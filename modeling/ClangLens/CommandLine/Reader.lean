import ClangLens.CommandLine.Basic

/-!
# Reading a command line

Words are read from left to right. A word that is taken as a value is settled, that is checked and
kept, when the next option or value is met and at the end; a word that does not fit at all is
complained about before what is still unsettled. A subcommand settles nothing: what is pending in
front of it is settled after everything behind it.
-/

namespace ClangLens.CommandLine

/-! ## Values -/

/-- A word that has to be text. -/
def textOf (w : Word) : Except UsageFault String :=
  match Utf8.decode? w with
  | some s => .ok s
  | none => .error .invalidUtf8

/-- A word that names a file. -/
def pathOf (w : Word) : Except UsageFault Path := if w = [] then .error .invalidValue else .ok ⟨w⟩

def isDigit (b : UInt8) : Bool := 48 ≤ b && b ≤ 57

/-- The number that digits spell. -/
def valueOf (digits : Bytes) : Nat := digits.foldl (fun acc b => acc * 10 + (b.toNat - 48)) 0

/-- A word that is a number below a bound: digits, perhaps behind a plus sign. -/
def numberOf (bound : Nat) (w : Word) : Except UsageFault Nat := do
  let _ ← textOf w
  let digits :=
    match w with
    | b :: rest => if b = 43 then rest else w
    | [] => []
  if digits ≠ [] && digits.all isDigit && valueOf digits < bound then return valueOf digits
  else throw .valueValidation

/-! ## What is known so far -/

/-- What has been settled. -/
structure Given where
  compileCommands : Option Path := none
  logLevel : Option String := none
  logFile : Option Path := none
  json : Bool := false
  limit : Option Nat := none
  noMacros : Bool := false
  patterns : Bool := false
  file : Option Path := none
  line : Option UInt32 := none
  column : Option UInt32 := none
  args : List String := []
deriving DecidableEq

/-- What a value belongs to. -/
inductive Subject where
  | option (name : OptionName)
  | slot (slot : Slot)
  | args
deriving DecidableEq

namespace Given

/-- A value given for the first time. -/
def once {α : Type} (old : Option α) (value : Except UsageFault α) :
    Except UsageFault (Option α) := do
  if old.isSome then throw .argumentConflict
  return some (← value)

/-- A switch turned on for the first time. -/
def switch (old : Bool) : Except UsageFault Bool :=
  if old then .error .argumentConflict else .ok true

/-- The only value of an option. -/
def value : List Word → Except UsageFault Word
  | [] => .error .invalidValue
  | w :: _ => .ok w

/-- What is settled with the values of one more option. -/
def putOption (g : Given) (words : List Word) : OptionName → Except UsageFault Given
  | .compileCommands => do
    let w ← value words
    return { g with compileCommands := ← once g.compileCommands (pathOf w) }
  | .logLevel => do
    let w ← value words
    return { g with logLevel := ← once g.logLevel (textOf w) }
  | .logFile => do
    let w ← value words
    return { g with logFile := ← once g.logFile (pathOf w) }
  | .limit => do
    let w ← value words
    return { g with limit := ← once g.limit (numberOf UInt64.size w) }
  | .json => do return { g with json := ← switch g.json }
  | .noMacros => do return { g with noMacros := ← switch g.noMacros }
  | .patterns => do return { g with patterns := ← switch g.patterns }
  | .help => .error .displayHelp
  | .version => .error .displayVersion

/-- What is settled with the value of one more slot. -/
def putSlot (g : Given) (words : List Word) (slot : Slot) : Except UsageFault Given := do
  let w ← value words
  match slot with
  | .file => return { g with file := some (← pathOf w) }
  | .line => return { g with line := some (← numberOf UInt32.size w).toUInt32 }
  | .column => return { g with column := some (← numberOf UInt32.size w).toUInt32 }

/-- What is settled with one more subject. -/
def put (g : Given) (words : List Word) : Subject → Except UsageFault Given
  | .option name => g.putOption words name
  | .slot slot => g.putSlot words slot
  | .args => do return { g with args := ← words.mapM textOf }

end Given

/-- How far the words of one side of the subcommand have been read. -/
structure Progress where
  given : Given := {}
  /-- What has been met and not been settled. -/
  pending : Option (Subject × List Word) := none
  /-- Whether the pending option still waits for its value. -/
  waiting : Bool := false
  /-- The slots that are still free. -/
  slots : List Slot
  /-- Whether only arguments follow. -/
  trailing : Bool := false

namespace Progress

/-- Nothing is pending any more. -/
def settle (p : Progress) : Except UsageFault Progress := do
  match p.pending with
  | none => return p
  | some (subject, words) =>
    return { p with given := ← p.given.put words subject, pending := none, waiting := false }

/-- Settles everything and then one more subject. -/
def put (p : Progress) (words : List Word) (subject : Subject) : Except UsageFault Progress := do
  let p ← p.settle
  return { p with given := ← p.given.put words subject }

/-- Settles everything and then leaves one more subject pending. -/
def pend (p : Progress) (words : List Word) (subject : Subject) : Except UsageFault Progress := do
  let p ← p.settle
  return { p with pending := some (subject, words) }

end Progress

/-! ## Words -/

/-- The byte of a dash. -/
def dash : UInt8 := 45

/-- What a word looks like. -/
inductive Shape where
  /-- Two dashes alone. -/
  | escape
  /-- An option by its name, perhaps with a value behind an equals sign. -/
  | long (name : Bytes) (value : Option Word)
  /-- Options by their letters. -/
  | short (letters : Bytes)
  | plain
deriving DecidableEq

/-- What a word looks like. -/
def shapeOf : Word → Shape
  | a :: b :: rest =>
    if a = dash && b = dash then
      if rest = [] then .escape
      else
        match rest.span (· ≠ 61) with
        | (name, []) => .long name none
        | (name, _ :: value) => .long name (some value)
    else if a = dash then .short (b :: rest)
    else .plain
  | _ => .plain

/-- An option met by its name. -/
def readLong (level : Level) (p : Progress) (name : Bytes) (value : Option Word) :
    Except UsageFault Progress :=
  match level.option? name with
  | none => .error .unknownArgument
  | some o =>
    match o.takesValue, value with
    | true, some v => p.put [v] (.option o)
    | true, none => do return { ← p.pend [] (.option o) with waiting := true }
    | false, some _ => .error .tooManyValues
    | false, none => p.put [] (.option o)

/-- Options met by their letters; the first one that is known decides. -/
def readShort (level : Level) (p : Progress) (letters : Bytes) : Except UsageFault Progress :=
  match level.options.find? fun o => o.letter?.isSome && o.letter? = letters.head? with
  | none => .error .unknownArgument
  | some o => p.put [] (.option o)

/-- A word met where a value may stand. -/
def readPlain (level : Level) (p : Progress) (w : Word) : Except UsageFault Progress :=
  if p.waiting then
    .ok { p with pending := p.pending.map fun (subject, _) => (subject, [w]), waiting := false }
  else
    match p.slots with
    | slot :: more => do return { ← p.pend [w] (.slot slot) with slots := more }
    | [] => .error (if level.takesCommand then .invalidSubcommand else .unknownArgument)

/-- A word met behind two dashes. -/
def readTrailing (level : Level) (p : Progress) (w : Word) : Except UsageFault Progress :=
  if level.takesArgs then
    match p.pending with
    | some (.args, words) => .ok { p with pending := some (.args, words ++ [w]) }
    | _ => p.pend [w] .args
  else if level.takesCommand && (CommandName.ofWord? w).isNone then .error .invalidSubcommand
  else .error .unknownArgument

/-- One word that names no subcommand. -/
def readWord (level : Level) (p : Progress) (w : Word) : Except UsageFault Progress :=
  if p.trailing then readTrailing level p w
  else
    match shapeOf w with
    | .escape => .ok { p with trailing := true }
    | .long name value => readLong level p name value
    | .short letters => readShort level p letters
    | .plain => readPlain level p w

/-- The subcommand that a word names here. -/
def commandAt? (level : Level) (p : Progress) (w : Word) : Option CommandName :=
  if level.takesCommand && !p.trailing && !p.waiting then CommandName.ofWord? w else none

/-- The words of one side, up to the name of a subcommand and what follows it, if there is one. -/
def readWords (level : Level) (p : Progress) :
    List Word → Except UsageFault (Progress × Option (CommandName × List Word))
  | [] => .ok (p, none)
  | w :: rest =>
    match commandAt? level p w with
    | some c => .ok (p, some (c, rest))
    | none => do
      let p ← readWord level p w
      readWords level p rest

/-! ## The whole command line -/

/-- A request for help on the subcommands that words name. -/
def helpFault : List Word → UsageFault
  | [] => .displayHelp
  | [w] => if (CommandName.ofWord? w).isSome then .displayHelp else .invalidSubcommand
  | _ => .invalidSubcommand

/-- A value that has to be given. -/
def required {α : Type} : Option α → Except UsageFault α
  | some a => .ok a
  | none => .error .missingRequiredArgument

/-- What a subcommand is told to do. -/
def subcommandOf (c : CommandName) (g : Given) : Except UsageFault Subcommand := do
  match c with
  | .version | .help => return .version
  | .diagnostics => return .diagnostics (← required g.file) g.args
  | .references => return .references (← required g.file) g.args
  | .outline => return .outline (← required g.file) g.args
  | .complete =>
    return .complete (← required g.file) (← required g.line) (← required g.column) g.limit
      g.noMacros g.patterns g.args

/-- What the words of a command line say, without the name of the program. What stands behind the
subcommand wins over what stands in front, and so do its faults over a value that is pending there. -/
def parse (words : List Word) : Except UsageFault Invocation := do
  match ← readWords .front { slots := Level.front.slots } words with
  | (p, none) =>
    let g := (← p.settle).given
    throw (if g = {} then .displayHelpOnMissing else .missingSubcommand)
  | (_, some (.help, rest)) => throw (helpFault rest)
  | (p, some (c, rest)) =>
    let level := Level.behind c
    let (q, _) ← readWords level { slots := level.slots } rest
    let h := (← q.settle).given
    let command ← subcommandOf c h
    let g := (← p.settle).given
    return ⟨h.compileCommands.or g.compileCommands, h.logLevel.or g.logLevel,
      h.logFile.or g.logFile, h.json || g.json, command⟩

end ClangLens.CommandLine
