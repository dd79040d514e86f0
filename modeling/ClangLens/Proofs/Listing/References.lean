import Mathlib
import ClangLens.Command.References
import ClangLens.Proofs.Callback.Indexing
import ClangLens.Proofs.Gathering
import ClangLens.Script.Library

/-!
# The references of a report

A report lists the references that the indexer delivered in its one run: those that say to what
entity they refer and lie in the main file, each once, with what the library says of it. They are in
the order of their places, those without a place first, and those at one place in the order in which
they were delivered.
-/

namespace ClangLens

open Dialogue

variable {L : Type} {library : Library L} {l : L}

/-! ## Order -/

/-- Lines decide and columns break ties; what has no place comes before what has one. -/
def ReferenceEntry.Precedes (a b : ReferenceEntry) : Prop :=
  match a.start, b.start with
  | none, _ => True
  | some _, none => False
  | some p, some q => p.line < q.line ∨ p.line = q.line ∧ p.column ≤ q.column

/-- A list put in order: entries at one place stay as they were. -/
structure ReferenceEntry.Ordered (found entries : List ReferenceEntry) : Prop where
  perm : entries.Perm found
  ascending : entries.Pairwise Precedes
  stable : ∀ place, (entries.filter fun e => e.start = place) =
    found.filter fun e => e.start = place

theorem Position.le_iff (p q : Position) :
    p.le q = true ↔ p.line < q.line ∨ p.line = q.line ∧ p.column ≤ q.column := by
  unfold Position.le Position.compare
  rw [decide_eq_true_eq, ne_eq, Ordering.then_eq_gt, Std.compare_eq_gt, Std.compare_eq_iff_eq,
    Std.compare_eq_gt]
  simp only [UInt32.lt_iff_toNat_lt, UInt32.le_iff_toNat_le, ← UInt32.toNat_inj]
  omega

namespace ReferenceEntry

theorem le_iff (a b : ReferenceEntry) : a.le b = true ↔ a.Precedes b := by
  unfold le Precedes
  cases a.start with
  | none => simp
  | some p =>
    cases b.start with
    | none => simp
    | some q => exact Position.le_iff p q

theorem le_trans (a b c : ReferenceEntry) (hab : a.le b = true) (hbc : b.le c = true) :
    a.le c = true := by
  rw [le_iff] at *
  unfold Precedes at *
  cases ha : a.start with
  | none => trivial
  | some p =>
    cases hb : b.start with
    | none => simp [ha, hb] at hab
    | some q =>
      cases hc : c.start with
      | none => simp [hb, hc] at hbc
      | some r =>
        simp only [ha, hb, hc, UInt32.lt_iff_toNat_lt, UInt32.le_iff_toNat_le,
          ← UInt32.toNat_inj] at hab hbc ⊢
        omega

theorem le_total (a b : ReferenceEntry) : (a.le b || b.le a) = true := by
  rw [Bool.or_eq_true, le_iff, le_iff]
  unfold Precedes
  cases a.start with
  | none => exact .inl trivial
  | some p =>
    cases b.start with
    | none => exact .inr trivial
    | some q =>
      simp only [UInt32.lt_iff_toNat_lt, UInt32.le_iff_toNat_le, ← UInt32.toNat_inj]
      omega

end ReferenceEntry

/-! ## One call back -/

/-- The calls made for the span of a place, and the span, if the place has a file. -/
inductive Location.Spans (location : Location) : List Exchange → Option FileSpan → Prop where
  | fileless {place : PlaceAnswer} (h : place.file = none) :
      Spans location [⟨.place (.spelling location), place⟩] none
  | filed {place : PlaceAnswer} {file : File} {string : Option ForeignString} {name : Option Bytes}
      (h : place.file = some file) :
      Spans location
        [⟨.place (.spelling location), place⟩, ⟨.text (.fileName file), string⟩,
          ⟨.stringBytes string, name⟩, ⟨.release (.string string), ()⟩]
        (some ⟨Path.ofString (ForeignString.read name),
          ⟨⟨place.line, place.column⟩, ⟨place.line, place.column⟩⟩⟩)

/-- What is listed of a reference to an entity at a place. -/
def ReferenceRecord.entry (r : ReferenceRecord) (entity : EntityRecord)
    (location : Option FileSpan) : ReferenceEntry where
  name :=
    if ForeignString.read entity.name = "" then "<anonymous>" else ForeignString.read entity.name
  usr := if ForeignString.read entity.usr = "" then none else some (ForeignString.read entity.usr)
  entityKind := (Coded.ofCode entity.kind : Coded EntityKind).spelling
  role := (⟨r.role.toBitVec⟩ : SymbolRoles).spelling
  location := location
  parent := do
    let parent ← r.parent
    if ForeignString.read parent.name = "" then none else some (ForeignString.read parent.name)

/-- The calls made for a call back of the indexer, and the entry listed for it. -/
inductive IndexCallback.Lists : IndexCallback → List Exchange → Option ReferenceEntry → Prop where
  | abortQuery : Lists (.abortQuery 0) [⟨.answerAbortQuery 0, ()⟩] none
  | declaration {record : Option DeclarationRecord} : Lists (.declaration record) [] none
  | missing : Lists (.reference none) [] none
  | unnamed {r : ReferenceRecord} (h : r.entity = none) : Lists (.reference (some r)) [] none
  | elsewhere {r : ReferenceRecord} {entity : EntityRecord} {location : Location}
      (h : r.entity = some entity) :
      Lists (.reference (some r))
        [⟨.location (.ofPlace r.place), location⟩, ⟨.number (.locationInMainFile location), 0⟩] none
  | listed {r : ReferenceRecord} {entity : EntityRecord} {location : Location} {inMainFile : UInt32}
      {calls : List Exchange} {span : Option FileSpan} (h : r.entity = some entity)
      (hmain : inMainFile ≠ 0) (hspan : location.Spans calls span) :
      Lists (.reference (some r))
        (⟨.location (.ofPlace r.place), location⟩ ::
          ⟨.number (.locationInMainFile location), inMainFile⟩ :: calls)
        (some (r.entry entity span))

theorem ReferenceRecord.entry_eq (r : ReferenceRecord) (entity : EntityRecord)
    (location : Option FileSpan) :
    r.entry entity location =
      ⟨entity.name?.getD Command.anonymous, entity.usr?, entity.entityKind.spelling,
        r.roles.spelling, location, r.parent.bind EntityRecord.name?⟩ := by
  unfold entry EntityRecord.name? EntityRecord.usr? ForeignString.borrowed nonEmpty
  congr 1
  split <;> rfl

/-- What the collector comes to in a run that it starts with some entries. -/
def IndexRun.Gathers (run : IndexRun) (start : List ReferenceEntry) (calls : List Exchange)
    (outcome : Outcome (List ReferenceEntry) Empty UInt32) : Prop :=
  ∃ delivered kept status, run.Makes delivered status ∧
    Gathered IndexCallback.Lists delivered calls kept ∧ outcome = (start ++ kept, .ok status)

theorem IndexRun.Gathers.cons {run next : IndexRun} {c : IndexCallback}
    {start start' : List ReferenceEntry} {kept? : Option ReferenceEntry}
    {calls more : List Exchange} {outcome : Outcome (List ReferenceEntry) Empty UInt32}
    (h : next.Gathers start' more outcome)
    (hmakes : ∀ {made status}, next.Makes made status → run.Makes (c :: made) status)
    (hfirst : c.Lists calls kept?) (hstart : start' = start ++ kept?.toList) :
    run.Gathers start (calls ++ more) outcome := by
  obtain ⟨delivered, kept, status, hnext, hkept, rfl⟩ := h
  refine ⟨c :: delivered, kept?.toList ++ kept, status, hmakes hnext, .cons hfirst hkept, ?_⟩
  rw [hstart, List.append_assoc]

/-- Calls none of which runs the indexer. -/
def Unindexed (calls : List Exchange) : Prop :=
  ∀ x ∈ calls, ∀ action unit flags, x.1 ≠ .index action unit flags

theorem Unindexed.append {calls more : List Exchange} (h : Unindexed calls) (h' : Unindexed more) :
    Unindexed (calls ++ more) := by
  intro x hx
  rcases List.mem_append.mp hx with hx | hx
  · exact h x hx
  · exact h' x hx

/-- What the indexer delivered in the one run there is, which ended with a status. -/
def IndexedOnce (calls : List Exchange) (status : UInt32) (found : List ReferenceEntry) : Prop :=
  ∃ before action unit run asked after delivered,
    calls = before ++ ⟨.index action unit ⟨Command.referenceFlags.bits⟩, run⟩ :: (asked ++ after) ∧
    Unindexed (before ++ after) ∧
    run.Makes delivered status ∧ Gathered IndexCallback.Lists delivered asked found

/-- If there is a report, it is one on what the indexer delivered. -/
def Reports (file : Path) (calls : List Exchange) (outcome : Except Failure ReferencesReport) :
    Prop :=
  ∀ report, outcome = .ok report → report.file = file ∧
    ∃ found, IndexedOnce calls 0 found ∧ ReferenceEntry.Ordered found report.entries

end ClangLens
