import ClangLens.Codes.Indexing
import ClangLens.Inspect.TranslationUnit

/-!
# Indexing a unit

The indexer reports the declarations and references of a unit to a consumer. What it reports may
miss parts; its texts stay with the library and are copied when they are asked for.
-/

namespace ClangLens

open Dialogue

namespace EntityRecord

def entityKind (e : EntityRecord) : Coded EntityKind := .ofCode e.kind

def name? (e : EntityRecord) : Option String := ForeignString.borrowed e.name

def usr? (e : EntityRecord) : Option String := ForeignString.borrowed e.usr

def shown (e : EntityRecord) : Shown :=
  .record "EntityInfo"
    [("kind", e.entityKind.shown), ("name", .option (e.name?.map .text)),
      ("usr", .option (e.usr?.map .text))]

end EntityRecord

namespace IndexPlace

/-- The place in the file that was indexed. -/
def file (p : IndexPlace) : Dialogue Place := do return .ofAnswer (← ask (.place (.indexed p)))

def source (p : IndexPlace) : Dialogue Location := ask (.location (.ofPlace p))

def shown (p : IndexPlace) : Dialogue Shown := do (← p.file).shownAs "IndexLocation"

end IndexPlace

/-- The structure of a container by its cursor. -/
def Cursor.shownAsContainer (c : Cursor) : Dialogue Shown := do
  return .record "ContainerInfo" [("cursor", ← c.shown)]

def DeclarationRecord.shown (d : DeclarationRecord) : Shown :=
  .record "DeclInfo"
    [("entity", .option (d.entity.map EntityRecord.shown)),
      ("is_definition", .bool (d.isDefinition ≠ 0)),
      ("is_redeclaration", .bool (d.isRedeclaration ≠ 0))]

namespace ReferenceRecord

def referenceKind (r : ReferenceRecord) : Coded ReferenceKind := .ofCode r.kind

/-- The parts the entity plays at the reference. -/
def roles (r : ReferenceRecord) : SymbolRoles := ⟨r.role.toBitVec⟩

def shown (r : ReferenceRecord) : Shown :=
  .record "EntityRefInfo"
    [("kind", r.referenceKind.shown),
      ("referenced_entity", .option (r.entity.map EntityRecord.shown)),
      ("role", r.roles.shown)]

end ReferenceRecord

namespace IndexAction

/-- An action, or nothing that can still be run and released. -/
abbrev Pointer := Option IndexAction

def create (i : Index.Pointer) : Dialogue Pointer := ask (.createAction i)

def release (a : Pointer) : Dialogue Unit := ask (.release (.action a))

/-- Indexes a unit for a consumer. A panic of the consumer comes before the status. -/
def index {σ π : Type} (logged : Bool) (a : Pointer) (u : TranslationUnit)
    (flags : IndexingFlags) (consumer : Consumer σ π) (s : σ) :
    Dialogue (Outcome σ π (Except Failure Unit)) := do
  logText logged (.unitSpelling u)
  let indexRun ← ask (.index a u ⟨flags.bits⟩)
  let (s, outcome) ← indexRun.drive consumer s
  return (s, outcome.map fun code =>
    let status : Coded Status := .ofCode code
    if status = .named .success then .ok () else .error (.indexing status))

end IndexAction

end ClangLens
