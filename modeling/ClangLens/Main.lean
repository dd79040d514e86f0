import ClangLens.Program
import ClangLens.Script.Library

/-!
# The command line

Reads the words, the variables and the database, runs the program and prints what it ends with. No
library is linked in, so a command that gets as far as loading one ends there.
-/

namespace ClangLens

/-- What is printed for someone who asks how to use the program. -/
def usage : String :=
  "Usage: clang-lens [--compile-commands PATH] [--log-level LEVEL] [--log-file FILE] [--json]\n"
    ++ "                  version | help\n"
    ++ "                  | (diagnostics | references | outline) FILE [-- ARGS]\n"
    ++ "                  | complete [--limit N] [--no-macros] [--patterns] FILE LINE COLUMN"
    ++ " [-- ARGS]\n"

/-- What the program calls itself. -/
def versionLine : String := "clang-lens 0.1.0\n"

/-- The canonical form of a path, where it has one. -/
def readCanonical (p : Path) : IO (Option Path) := do
  try
    return some (Path.ofString (← IO.FS.realPath p.text).toString)
  catch _ => return none

/-- What a path leads to. -/
def readStored (p : Path) : IO Stored := do
  if (← readCanonical p).isNone then return .absent
  try
    return .bytes (← IO.FS.readBinFile p.text).toList
  catch
    | .permissionDenied _ _ reason => return .closed reason
    | e => return .unreadable e.toString

/-- What makes a file name this process's own: its number. -/
def readTag : IO String := do
  try
    return String.ofList ((← IO.FS.readFile "/proc/self/stat").toList.takeWhile Char.isDigit)
  catch _ => return "0"

/-- The file a subcommand is about. -/
def Subcommand.file? : Subcommand → Option Path
  | .version => none
  | .diagnostics file _ | .references file _ | .outline file _ => some file
  | .complete file .. => some file

/-- Opens the log, if there is one, and runs an invocation. -/
def perform (plan : Plan) : IO Ending := do
  try
    match plan.log.file with
    | none => pure ()
    | some p => let _ ← IO.FS.Handle.mk p.text .append
  catch e =>
    IO.eprintln ("Failed to initialize logging: " ++ e.toString)
    return .unlogged
  let i := plan.invocation
  let stored ←
    match i.compileCommands with
    | none => pure Stored.absent
    | some p => readStored p
  let canonical ←
    match i.command.file? with
    | none => pure none
    | some p => readCanonical p
  let library := ({} : Script).missing "no library is linked into this program"
  let (ending, _) := (Program.run 0 (fun _ => stored) (fun _ => canonical) false i).run library {}
  return ending.getD .unlogged

/-- Prints what the program ends with. -/
def Ending.print (e : Ending) : IO UInt32 := do
  IO.print e.output
  match e.complaint with
  | none => pure ()
  | some complaint => IO.eprintln ("Error: " ++ complaint)
  return e.status.toUInt32

/-- Prints what there is to say about a command line that cannot be carried out. -/
def UsageFault.print (fault : UsageFault) : IO UInt32 := do
  match fault with
  | .displayHelp => IO.print usage
  | .displayVersion => IO.print versionLine
  | fault => IO.eprint ("error: " ++ fault.kind ++ "\n\n" ++ usage)
  return fault.status.toUInt32

end ClangLens

open ClangLens in
def main (words : List String) : IO UInt32 := do
  let values ← LogSettings.variableNames.filterMapM fun name => do
    return (← IO.getEnv name).map fun value => (name, value)
  match Plan.ofWords (words.map Utf8.encode) (fun name => values.lookup name) (← readTag) with
  | .error fault => fault.print
  | .ok plan => (← perform plan).print
