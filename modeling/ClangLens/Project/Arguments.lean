import ClangLens.Project.Database
import ClangLens.Request.Parse

/-!
# Arguments for parsing a file

The arguments of an entry are those of a compiler run. For parsing, the compiler itself, the source
file and what concerns the output are left out, and the directory is named. Arguments given with a
request win over those of a database; a database is asked for the file as given, then for its
canonical form.
-/

namespace ClangLens

namespace DatabaseEntry

/-- Arguments without `-c`, without `-o` and what follows it, and without the named sources. -/
def withoutOutput (sources : List String) : List String → List String
  | [] => []
  | a :: rest =>
    if a = "-c" then withoutOutput sources rest
    else if a = "-o" then
      match rest with
      | [] => []
      | _ :: rest => withoutOutput sources rest
    else if a ∈ sources then withoutOutput sources rest
    else a :: withoutOutput sources rest

/-- The arguments for parsing the file of an entry, if it has a command. -/
def parseArguments (e : DatabaseEntry) : Option (List String) :=
  match e.arguments with
  | [] => none
  | _ :: rest =>
    some (("-working-directory=" ++ e.directory.text) ::
      withoutOutput [e.file.text, e.location.text] rest)

end DatabaseEntry

/-- The arguments for parsing a file, from the first entry that answers for it. -/
def Database.argumentsFor (db : Database) (p : Path) : Option (List String) :=
  (db.entryFor? p).bind DatabaseEntry.parseArguments

/-- Where arguments came from. -/
inductive ArgumentSource where
  | commandLine
  | database
  | none
deriving DecidableEq

/-- The name of a source of arguments. -/
def ArgumentSource.name : ArgumentSource → String
  | .commandLine => "CommandLine"
  | .database => "CompilationDatabase"
  | .none => "None"

/-- The canonical form of a path, where it has one. -/
abbrev Canonical := Path → Option Path

/-- The arguments for a file and where they came from. -/
def resolveArguments (canonical : Canonical) (file : Path) (explicit : List String)
    (db : Option Database) : List String × ArgumentSource :=
  if explicit ≠ [] then (explicit, .commandLine)
  else
    let found := db.bind fun db =>
      (db.argumentsFor file).or ((canonical file).bind db.argumentsFor)
    match found with
    | some arguments => (arguments, .database)
    | none => ([], .none)

/-- The request to parse a file with its arguments. -/
def ParseRequest.forFile (canonical : Canonical) (file : Path) (explicit : List String)
    (db : Option Database) : Except RequestFault ParseRequest :=
  ParseRequest.ofSteps
    [.source file, .args (resolveArguments canonical file explicit db).1]

end ClangLens
