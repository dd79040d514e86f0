import ClangLens.Command.Complete
import ClangLens.Command.Diagnostics
import ClangLens.Command.Outline
import ClangLens.Command.References
import ClangLens.CommandLine.Reader
import ClangLens.Log.Settings

/-!
# The program

From a command line to what is printed: the words are read, the database is loaded, then the
library, the command is run and its report printed. The first thing that fails ends the program, and
nothing is printed then. A file with errors is reported and still ends the program with a failure.
-/

namespace ClangLens

/-- What a command line asks for, with where to log. -/
structure Plan where
  invocation : Invocation
  log : LogSettings
deriving DecidableEq

/-- The plan of a command line, without the name of the program. -/
def Plan.ofWords (words : List Word) (lookup : String → Option String) (tag : String) :
    Except UsageFault Plan := do
  let invocation ← CommandLine.parse words
  let log := (LogSettings.ofVariables lookup tag).override invocation.logLevel
    invocation.logFile false
  return ⟨invocation, log⟩

/-- How the program ends. -/
structure Ending where
  status : Nat
  /-- What is printed. -/
  output : String
  /-- What is complained about. -/
  complaint : Option String
deriving DecidableEq

namespace Ending

/-- The end with a complaint. -/
def failed (shown : Shown) : Ending := ⟨1, "", some shown.render⟩

/-- The end of a program whose log cannot be opened. -/
def unlogged : Ending := ⟨1, "", none⟩

/-- What is complained about when a report cannot be printed. -/
def unwritable (u : Unwritable) : Ending :=
  ⟨1, "", some ("Error(" ++ Quoted.text u.message ++ ", line: 0, column: 0)")⟩

/-- The end with a report. -/
def ofReport {α : Type} [Report α] (asJson : Bool) (status : Nat) (report : α) : Ending :=
  match Report.print asJson report with
  | .ok output => ⟨status, output, none⟩
  | .error u => unwritable u

/-- The end with a report or a failure. -/
def ofOutcome {α : Type} [Report α] (asJson : Bool) (status : α → Nat) :
    Except Failure α → Ending
  | .ok report => ofReport asJson (status report) report
  | .error failure => failed failure.shown

end Ending

namespace Program

open Dialogue

/-- Runs a subcommand with the library loaded. -/
def perform (depth : Nat) (around : Surroundings) (asJson : Bool) : Subcommand → Dialogue Ending
  | .version => do return .ofReport asJson 0 (VersionReport.mk (← libraryVersion))
  | .diagnostics file args => do
    let status (r : DiagnosticsReport) : Nat := if r.hasErrors then 1 else 0
    return .ofOutcome asJson status (← Command.diagnostics around file args)
  | .complete file line column limit noMacros patterns args => do
    let options : CompleteOptions := ⟨file, line, column, limit, !noMacros, patterns, args⟩
    return .ofOutcome asJson (fun _ => 0) (← Command.complete depth around options)
  | .references file args => do
    return .ofOutcome asJson (fun _ => 0) (← Command.references around file args)
  | .outline file args => do
    return .ofOutcome asJson (fun _ => 0) (← Command.outline depth around file args)

/-- Loads the library, runs a subcommand and drops the library. A program that ends because a file
has errors does so on the spot and leaves the library loaded. -/
def withLibrary (depth : Nat) (around : Surroundings) (asJson : Bool) (command : Subcommand) :
    Dialogue Ending := do
  let (loaded, _) ← Loading.load around.logged .idle
  match loaded with
  | .error failure => return .failed failure.shown
  | .ok () =>
    let ending ← perform depth around asJson command
    if ending.status = 1 && ending.complaint.isNone then return ending
    let _ ← Loading.drop
    return ending

/-- Carries out an invocation. What a path leads to is asked for the database only, and nothing
nested deeper than `depth` is followed. -/
def run (depth : Nat) (stored : Path → Stored) (canonical : Canonical) (logged : Bool)
    (i : Invocation) : Dialogue Ending :=
  match i.compileCommands with
  | none => withLibrary depth ⟨canonical, none, logged⟩ i.json i.command
  | some path =>
    match Database.load path (stored path) with
    | .error fault => return .failed fault.shown
    | .ok db => withLibrary depth ⟨canonical, some db, logged⟩ i.json i.command

end Program

end ClangLens
