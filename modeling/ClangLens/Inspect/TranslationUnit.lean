import ClangLens.Inspect.Completions
import ClangLens.Inspect.Cursor

/-!
# Indexes and translation units

Parsing a file in an index and what can be asked of the unit. Whatever a request holds is turned into
what the library takes before the library is called, so a request that cannot be handed over makes no
call. A unit handed out along with a status that says failure is released.
-/

namespace ClangLens

open Dialogue

/-- Options for making an index. -/
structure IndexOptions where
  /-- Whether declarations from a precompiled header are skipped. -/
  excludeFromPch : Bool := false
  /-- Whether the library prints diagnostics itself. -/
  displayDiagnostics : Bool := false
deriving DecidableEq

/-- A parse request as the library takes it. -/
structure ParseCall where
  source : ForeignText
  args : ForeignArray ForeignText
  unsaved : ForeignArray UnsavedRecord

/-- The source first, then the arguments, then the unsaved files. -/
def ParseCall.ofRequest (r : ParseRequest) : Except Failure ParseCall := do
  let source ← ForeignText.ofPath r.source
  let args ← r.args.mapM ForeignText.ofString
  let unsaved ← UnsavedRecord.ofFiles r.unsaved
  return ⟨source, .ofList args, unsaved⟩

/-- A completion request as the library takes it. -/
structure CompleteCall where
  file : ForeignText
  unsaved : ForeignArray UnsavedRecord

/-- The file first, then the unsaved files. -/
def CompleteCall.ofRequest (r : CompleteRequest) : Except Failure CompleteCall := do
  let file ← ForeignText.ofPath r.file
  let unsaved ← UnsavedRecord.ofFiles r.unsaved
  return ⟨file, unsaved⟩

namespace TranslationUnit

def release (u : TranslationUnit) : Dialogue Unit := ask (.release (.unit u))

def spelling (u : TranslationUnit) : Dialogue String := askText (.unitSpelling u)

/-- The cursor that everything in a unit is below of. -/
def cursor (u : TranslationUnit) : Dialogue Cursor := ask (.cursor (.ofUnit u))

/-- The file of a name, if the unit has it. -/
def file? (u : TranslationUnit) (p : Path) : Dialogue (Except Failure (Option File)) :=
  match ForeignText.ofPath p with
  | .error failure => return .error failure
  | .ok name => do return .ok (← ask (.fileNamed u name))

/-- The place of a line and a column. -/
def location (u : TranslationUnit) (f : File) (line column : UInt32) : Dialogue Location :=
  ask (.location (.inFile u f line column))

def numDiagnostics (u : TranslationUnit) : Dialogue UInt32 := askNumber (.unitDiagnostics u)

/-- A diagnostic of the unit, which is ours to release. -/
def diagnostic? (u : TranslationUnit) (i : UInt32) : Dialogue (Option Diagnostic) :=
  atIndex u.numDiagnostics i (ask (.diagnostic (.unit u) i))

/-- What is made of each diagnostic in turn, each released before the next one is asked for. -/
def mapDiagnostics {α : Type} (u : TranslationUnit) (f : Diagnostic → Dialogue α) :
    Dialogue (List α) := do
  collect (← u.numDiagnostics) fun i => do Diagnostic.using? f (← u.diagnostic? i)

/-- Parses the unit again. A unit that could not be is released. -/
def reparse (logged : Bool) (u : TranslationUnit) (files : List UnsavedFile) :
    Dialogue (Except Failure TranslationUnit) := do
  match UnsavedRecord.ofFiles files with
  | .error failure =>
    u.release
    return .error failure
  | .ok unsaved =>
    let options ← askNumber (.reparseOptions u)
    let status : Coded Status := .ofCode (← ask (.reparse u unsaved options))
    if status = .named .success then
      logText logged (.unitSpelling u)
      return .ok u
    u.release
    return .error (.reparse status)

/-- Saves the unit to a path. -/
def save (u : TranslationUnit) (p : Path) : Dialogue (Except Failure Unit) :=
  match ForeignText.ofPath p with
  | .error failure => return .error failure
  | .ok name => do
    let options ← askNumber (.saveOptions u)
    let status : Coded SaveStatus := .ofCode (← ask (.save u name options))
    return if status = .named .none then .ok () else .error (.save p status)

/-- Completes code at a place. The results are ours to release. -/
def complete (u : TranslationUnit) (r : CompleteRequest) :
    Dialogue (Except Failure Completions) :=
  match CompleteCall.ofRequest r with
  | .error failure => return .error failure
  | .ok c => do
    match ← ask (.complete u c.file r.line r.column c.unsaved ⟨r.flags.bits⟩) with
    | none => return .error (.completion r.file r.line r.column)
    | some results =>
      if r.sorted then results.sort
      return .ok results

end TranslationUnit

namespace Index

/-- An index, or nothing that can still be parsed in and released. -/
abbrev Pointer := Option Index

def create (o : IndexOptions) : Dialogue Pointer :=
  ask (.createIndex (truthCode o.excludeFromPch) (truthCode o.displayDiagnostics))

def release (i : Pointer) : Dialogue Unit := ask (.release (.index i))

def globalOptions (i : Pointer) : Dialogue GlobalOptions := do
  return ⟨(← askNumber (.globalOptions i)).toBitVec⟩

def setGlobalOptions (i : Pointer) (o : GlobalOptions) : Dialogue Unit :=
  ask (.setGlobalOptions i ⟨o.bits⟩)

/-- Parses a file. The unit is ours to release. -/
def parse (i : Pointer) (r : ParseRequest) : Dialogue (Except Failure TranslationUnit) :=
  match ParseCall.ofRequest r with
  | .error failure => return .error failure
  | .ok c => do
    let answer ← ask (.parse i c.source c.args c.unsaved ⟨r.flags.bits⟩)
    let status : Coded Status := .ofCode answer.status
    match answer.unit with
    | none =>
      let status := if status = .named .success then .named .failure else status
      return .error (.parse r.source status)
    | some unit =>
      if status = .named .success then return .ok unit
      unit.release
      return .error (.parse r.source status)

end Index

end ClangLens
