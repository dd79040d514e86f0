import ClangLens.Path.Basic

/-!
# Command lines

What a command line can say, and what can be wrong with one. Words are bytes; which of them have to
be text is up to what they stand for.
-/

namespace ClangLens

/-- A word of a command line. -/
abbrev Word := Bytes

/-- What to do. -/
inductive Subcommand where
  | version
  | diagnostics (file : Path) (args : List String)
  | complete (file : Path) (line column : UInt32) (limit : Option Nat) (noMacros patterns : Bool)
      (args : List String)
  | references (file : Path) (args : List String)
  | outline (file : Path) (args : List String)
deriving DecidableEq

/-- What a command line says. -/
structure Invocation where
  compileCommands : Option Path
  logLevel : Option String
  logFile : Option Path
  json : Bool
  command : Subcommand
deriving DecidableEq

/-- Why a command line says nothing that could be done: it asks for help or the version, or
something is wrong with it. -/
inductive UsageFault where
  | displayHelp
  | displayVersion
  /-- Nothing was said at all. -/
  | displayHelpOnMissing
  | missingSubcommand
  | invalidSubcommand
  | unknownArgument
  | argumentConflict
  | tooManyValues
  | invalidValue
  | invalidUtf8
  | missingRequiredArgument
  | valueValidation
deriving DecidableEq

namespace UsageFault

/-- The name of the kind of fault. -/
def kind : UsageFault → String
  | .displayHelp => "DisplayHelp"
  | .displayVersion => "DisplayVersion"
  | .displayHelpOnMissing => "DisplayHelpOnMissingArgumentOrSubcommand"
  | .missingSubcommand => "MissingSubcommand"
  | .invalidSubcommand => "InvalidSubcommand"
  | .unknownArgument => "UnknownArgument"
  | .argumentConflict => "ArgumentConflict"
  | .tooManyValues => "TooManyValues"
  | .invalidValue => "InvalidValue"
  | .invalidUtf8 => "InvalidUtf8"
  | .missingRequiredArgument => "MissingRequiredArgument"
  | .valueValidation => "ValueValidation"

/-- Whether what is said about it is an answer and not a complaint. -/
def isAnswer : UsageFault → Bool
  | .displayHelp | .displayVersion => true
  | _ => false

/-- The exit status of a program that ends with it. -/
def status (fault : UsageFault) : Nat := if fault.isAnswer then 0 else 2

end UsageFault

/-! ## The parts of a command line -/

/-- An option. -/
inductive OptionName where
  | compileCommands | logLevel | logFile | json | limit | noMacros | patterns | help | version
deriving DecidableEq

namespace OptionName

/-- What is written behind the two dashes. -/
def spelling : OptionName → String
  | .compileCommands => "compile-commands"
  | .logLevel => "log-level"
  | .logFile => "log-file"
  | .json => "json"
  | .limit => "limit"
  | .noMacros => "no-macros"
  | .patterns => "patterns"
  | .help => "help"
  | .version => "version"

/-- Whether a value belongs to the option. -/
def takesValue : OptionName → Bool
  | .compileCommands | .logLevel | .logFile | .limit => true
  | _ => false

/-- The letter that stands for the option behind one dash. -/
def letter? : OptionName → Option UInt8
  | .help => some 104
  | .version => some 86
  | _ => none

end OptionName

/-- A value with a place of its own. -/
inductive Slot where
  | file | line | column
deriving DecidableEq

/-- The name of a subcommand. -/
inductive CommandName where
  | version | diagnostics | complete | references | outline | help
deriving DecidableEq

namespace CommandName

def spelling : CommandName → String
  | .version => "version"
  | .diagnostics => "diagnostics"
  | .complete => "complete"
  | .references => "references"
  | .outline => "outline"
  | .help => "help"

def all : List CommandName := [.version, .diagnostics, .complete, .references, .outline, .help]

/-- The subcommand that a word names. -/
def ofWord? (w : Word) : Option CommandName := all.find? fun c => Utf8.encode c.spelling = w

end CommandName

/-- What may stand at one side of the name of a subcommand. -/
structure Level where
  options : List OptionName
  slots : List Slot
  /-- Whether words behind `--` are taken. -/
  takesArgs : Bool
  /-- Whether a subcommand is named here. -/
  takesCommand : Bool

namespace Level

/-- The options that may stand at either side. -/
def shared : List OptionName := [.compileCommands, .logLevel, .logFile, .json, .help]

/-- In front of the subcommand. -/
def front : Level := ⟨.version :: shared, [], false, true⟩

/-- Behind the name of a subcommand. -/
def behind : CommandName → Level
  | .version | .help => ⟨shared, [], false, false⟩
  | .diagnostics | .references | .outline => ⟨shared, [.file], true, false⟩
  | .complete =>
    ⟨shared ++ [.limit, .noMacros, .patterns], [.file, .line, .column], true, false⟩

/-- The option of a name. -/
def option? (level : Level) (name : Bytes) : Option OptionName :=
  level.options.find? fun o => Utf8.encode o.spelling = name

end Level

end ClangLens
