import ClangLens.Path.FileName

/-!
# Where and how to log

Settings come from variables of the environment and are overridden by what a command line says. A
file name can be made the process's own by putting a tag in front of its extension.
-/

namespace ClangLens

/-- A path whose file name has a tag in front of its extension, or behind it if it has none that can
be kept. A path that ends in no name stays as it is. -/
def Path.tagged (p : Path) (tag : String) : Path :=
  match p.fileName? with
  | none => p
  | some name =>
    let (stem, extension) := Path.cutExtension name
    let extension := (extension.bind Utf8.decode?).getD ""
    let name := Utf8.lossy stem ++ "." ++ tag ++ if extension = "" then "" else "." ++ extension
    p.withFileName (Utf8.encode name)

structure LogSettings where
  level : String
  /-- The file to log to, instead of the terminal. -/
  file : Option Path
  /-- Whether a line of the log is JSON. -/
  json : Bool
deriving DecidableEq

namespace LogSettings

/-- The settings when nothing is said. -/
def default : LogSettings := ⟨"warn", none, false⟩

def levelVariable : String := "RUST_LOG"

def fileVariable : String := "CLANG_BRIDGE_LOG_FILE"

/-- It is `true` where the file name is to be the process's own. -/
def uniqueVariable : String := "CLANG_BRIDGE_LOG_UNIQUE"

/-- It is `true` where a line of the log is to be JSON. -/
def jsonVariable : String := "CLANG_BRIDGE_LOG_JSON"

/-- The variables that are looked at. -/
def variableNames : List String := [levelVariable, fileVariable, uniqueVariable, jsonVariable]

/-- The settings that variables give. The tag is what makes a file name the process's own. -/
def ofVariables (lookup : String → Option String) (tag : String) : LogSettings :=
  let isTrue (name : String) : Bool := lookup name = some "true"
  let file := (lookup fileVariable).map Path.ofString
  { level := (lookup levelVariable).getD default.level
    file := if isTrue uniqueVariable then file.map (·.tagged tag) else file
    json := isTrue jsonVariable }

/-- Settings with those that are given put in their place. JSON is only ever turned on. -/
def override (s : LogSettings) (level : Option String) (file : Option Path) (json : Bool) :
    LogSettings :=
  ⟨level.getD s.level, file.or s.file, s.json || json⟩

end LogSettings

end ClangLens
