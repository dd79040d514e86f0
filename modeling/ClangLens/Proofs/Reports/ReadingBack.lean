import ClangLens.Proofs.Codes
import ClangLens.Proofs.Json.Documents
import ClangLens.Proofs.Json.Shapes
import ClangLens.Proofs.Reports.Paths

/-!
# Reports read back

The JSON value of a report is asked for its fields again, and each gives what the report held: a
missing value is null and no empty text, a declaration with nothing in it has no field for that.
Only severities without a name come back as one and the same.
-/

namespace ClangLens

open Json

/-! ## Codes -/

/-- The code with a spelling. -/
def Coded.ofSpelling? {α : Type} [CodeTable α] (s : String) : Option (Coded α) :=
  match (CodeTable.entries (α := α)).find? fun e => CodeTable.label α ++ "=" ++ e.name = s with
  | some e => some (.named e.value)
  | none => do
    let digits ← (CodeTable.typeName α ++ " unknown ").toList.isPrefixOf? s.toList
    return .unknown (Nat.ofDigitChars 10 digits 0).toUInt32

namespace Coded

variable {α : Type} [CodeTable α] [DecidableEq α]

theorem spelling_named {e : CodeEntry α} (h : row? e.value = some e) :
    (named e.value).spelling = CodeTable.label α ++ "=" ++ e.name := by
  rw [spelling, nameOf, h]
  rfl

theorem ofSpelling?_spelling (h : CodeTable.Distinct α) (hall : ∀ value : α, (row? value).isSome)
    (x : Coded α) : ofSpelling? x.spelling = some x := by
  unfold ofSpelling?
  cases x with
  | named value =>
    obtain ⟨e, he, rfl, hrow⟩ := exists_row hall value
    have hsame : ∀ e' : CodeEntry α, CodeTable.label α ++ "=" ++ e'.name =
        CodeTable.label α ++ "=" ++ e.name ↔ e'.name = e.name :=
      fun e' => String.append_right_inj _
    rw [spelling_named hrow]
    simp only [hsame]
    rw [find?_key h.names he]
  | unknown n =>
    have hnone : ((CodeTable.entries (α := α)).find? fun e =>
        CodeTable.label α ++ "=" ++ e.name = (unknown n : Coded α).spelling) = none := by
      rw [List.find?_eq_none]
      intro e he hspelled
      rw [← spelling_named (row?_value h he)] at hspelled
      exact named_ne_unknown h e.value n (of_decide_eq_true hspelled)
    rw [hnone]
    dsimp only
    rw [spelling, Flags.isPrefixOf?_append, Option.bind_eq_bind, Option.bind_some,
      ofDigitChars_toString]
    simp

end Coded

namespace Severity

/-- The severity with a word. All without a name have the same. -/
def ofLabel? (s : String) : Option (Coded Severity) :=
  match s with
  | "ignored" => some (.named .ignored)
  | "note" => some (.named .note)
  | "warning" => some (.named .warning)
  | "error" => some (.named .error)
  | "fatal error" => some (.named .fatal)
  | "unknown" => some (.unknown 0)
  | _ => none

/-- A severity as far as its word tells. -/
def settled : Coded Severity → Coded Severity
  | .unknown _ => .unknown 0
  | x => x

theorem ofLabel?_label (x : Coded Severity) : ofLabel? (label x) = some (settled x) := by
  cases x with
  | named s => cases s <;> rfl
  | unknown n => rfl

theorem label_settled (x : Coded Severity) : label (settled x) = label x := by
  cases x <;> rfl

end Severity

/-! ## Spans -/

theorem Path.json_writes (p : Path) :
    Writes p.json [p] fun j => j.value.text?.map Path.ofString = some p where
  ok hp := by
    obtain ⟨s, rfl⟩ := Path.isText_iff.mp (hp p List.mem_cons_self)
    refine ⟨.string s, ?_, rfl⟩
    rw [Path.json, Path.text?, Path.ofString, Utf8.decode?_encode]
  error := by
    rintro ⟨p', hp', hbad⟩
    obtain rfl := List.mem_singleton.mp hp'
    rw [Path.IsText, Option.not_isSome_iff_eq_none] at hbad
    rw [Path.json, hbad]

def Position.ofValue? (v : Value) : Option Position := do
  return ⟨← (← v.field? "line").word?, ← (← v.field? "column").word?⟩

def Span.ofValue? (v : Value) : Option Span := do
  return ⟨← Position.ofValue? (← v.field? "start"), ← Position.ofValue? (← v.field? "end")⟩

def FileSpan.ofValue? (v : Value) : Option FileSpan := do
  return ⟨Path.ofString (← (← v.field? "file_path").text?), ← Span.ofValue? (← v.field? "span")⟩

theorem Position.ofValue?_json (p : Position) : ofValue? p.json.value = some p := by
  simp [json, ofValue?, value, fields, Value.field?_cons_of_ne]

theorem Span.ofValue?_json (s : Span) : ofValue? s.json.value = some s := by
  simp [json, ofValue?, value, fields, Value.field?_cons_of_ne, Position.ofValue?_json]

theorem FileSpan.json_writes (s : FileSpan) :
    Writes s.json [s.file] fun j => ofValue? j.value = some s ∧ j.value ≠ .null := by
  refine s.file.json_writes.map fun j hj => ?_
  obtain ⟨t, ht, hfile⟩ := Option.map_eq_some_iff.mp hj
  simp [ofValue?, value, fields, Value.field?_cons_of_ne, Span.ofValue?_json, ht, hfile]

theorem FileSpan.jsonOption_writes (s : Option FileSpan) :
    Writes (jsonOption s) (paths s) fun j => j.value.option? ofValue? = some s := by
  cases s with
  | none => exact .pure rfl
  | some s =>
    refine s.json_writes.imp fun j ⟨hj, hnull⟩ => ?_
    rw [Value.option?, hj, Option.map_some]
    exact hnull

/-! ## Versions -/

namespace VersionReport

def ofValue? (v : Value) : Option VersionReport := do
  return ⟨← (← v.field? "version").text?⟩

theorem json_writes (r : VersionReport) :
    Writes (Report.json r) r.paths fun j => ofValue? j.value = some r := by
  refine .pure ?_
  simp [ofValue?, value, fields]

end VersionReport

/-! ## Diagnostics -/

namespace FixItEntry

def ofValue? (v : Value) : Option FixItEntry := do
  return ⟨← (← v.field? "span").option? FileSpan.ofValue?, ← (← v.field? "replacement").text?⟩

theorem json_writes (f : FixItEntry) :
    Writes f.json f.paths fun j => ofValue? j.value = some f := by
  refine (FileSpan.jsonOption_writes f.span).map fun j hj => ?_
  simp [ofValue?, value, fields, Value.field?_cons_of_ne, hj]

end FixItEntry

namespace DiagnosticOption

def ofValue? (v : Value) : Option DiagnosticOption := do
  return ⟨← (← v.field? "enable").text?, ← (← v.field? "disable").option? Value.text?⟩

theorem option?_json (o : Option DiagnosticOption) :
    (Json.option json o).value.option? ofValue? = some o := by
  refine Value.option?_option (fun o => ?_) (fun o => ?_) o
  · simp [json, ofValue?, value, fields, Value.field?_cons_of_ne]
  · simp [json, value]

end DiagnosticOption

namespace DiagnosticEntry

/-- An entry as far as its JSON value tells. -/
def settled (e : DiagnosticEntry) : DiagnosticEntry :=
  { e with severity := Severity.settled e.severity }

def ofValue? (v : Value) : Option DiagnosticEntry := do
  return {
    severity := ← Severity.ofLabel? (← (← v.field? "severity").text?)
    message := ← (← v.field? "message").text?
    location := ← (← v.field? "location").option? FileSpan.ofValue?
    formatted := ← (← v.field? "formatted").text?
    category := ← (← v.field? "category").option? Value.text?
    option := ← (← v.field? "option").option? DiagnosticOption.ofValue?
    fixIts := ← (← v.field? "fix_its").list? FixItEntry.ofValue? }

theorem json_writes (e : DiagnosticEntry) :
    Writes e.json e.paths fun j => ofValue? j.value = some e.settled := by
  refine (FileSpan.jsonOption_writes e.location).bind fun location hlocation => ?_
  refine (Writes.mapM fun f _ => f.json_writes).map fun fixIts hfixIts => ?_
  have hlist := Value.list?_array hfixIts
  simp [ofValue?, settled, value, fields, Value.field?_cons_of_ne, Severity.ofLabel?_label,
    DiagnosticOption.option?_json, hlocation, hlist]

theorem json_settled (e : DiagnosticEntry) : e.settled.json = e.json := by
  rw [json, settled, Severity.label_settled]
  rfl

end DiagnosticEntry

namespace DiagnosticsReport

/-- A report as far as its JSON value tells. -/
def settled (r : DiagnosticsReport) : DiagnosticsReport :=
  { r with entries := r.entries.map DiagnosticEntry.settled }

def ofValue? (v : Value) : Option DiagnosticsReport := do
  return ⟨Path.ofString (← (← v.field? "file").text?),
    ← (← v.field? "diagnostics").list? DiagnosticEntry.ofValue?⟩

theorem json_writes (r : DiagnosticsReport) :
    Writes (Report.json r) r.paths fun j => ofValue? j.value = some r.settled := by
  refine r.file.json_writes.bind fun file hfile => ?_
  refine (Writes.mapM fun e _ => e.json_writes).map fun entries hentries => ?_
  obtain ⟨s, hs, hfile⟩ := Option.map_eq_some_iff.mp hfile
  have hlist := Value.list?_array (List.forall₂_map_left_iff.mpr hentries)
  simp [ofValue?, settled, value, fields, Value.field?_cons_of_ne, hs, hfile, hlist]

theorem json_settled (r : DiagnosticsReport) : Report.json r.settled = Report.json r := by
  have hentries : r.settled.entries.mapM DiagnosticEntry.json =
      r.entries.mapM DiagnosticEntry.json := by
    rw [settled, List.mapM_map]
    exact congrArg (r.entries.mapM ·) (funext DiagnosticEntry.json_settled)
  show (do
    let file ← r.file.json
    let entries ← r.settled.entries.mapM DiagnosticEntry.json
    return Json.object [("file", file), ("diagnostics", .array entries)]) = _
  rw [hentries]
  rfl

end DiagnosticsReport

/-! ## Completions -/

namespace CompletionEntry

def ofValue? (v : Value) : Option CompletionEntry := do
  return {
    typedText := ← (← v.field? "typed_text").text?
    text := ← (← v.field? "text").text?
    resultType := ← (← v.field? "result_type").option? Value.text?
    kind := ← (← v.field? "kind").text?
    priority := ← (← v.field? "priority").word?
    availability := ← (← v.field? "availability").text?
    briefComment := ← (← v.field? "brief_comment").option? Value.text? }

theorem ofValue?_json (e : CompletionEntry) : ofValue? e.json.value = some e := by
  simp [json, ofValue?, value, fields, Value.field?_cons_of_ne]

end CompletionEntry

namespace CompletionContainer

def ofValue? (v : Value) : Option CompletionContainer := do
  return ⟨← Coded.ofSpelling? (← (← v.field? "kind").text?), ← (← v.field? "is_incomplete").truth?⟩

theorem ofValue?_json (c : CompletionContainer) : ofValue? c.json.value = some c := by
  have hkind := Coded.ofSpelling?_spelling Coded.cursorKind_distinct
    (fun kind => by cases kind <;> rfl) c.kind
  simp [json, ofValue?, value, fields, Value.field?_cons_of_ne, hkind]

end CompletionContainer

namespace CompletionReport

def ofValue? (v : Value) : Option CompletionReport := do
  return {
    file := Path.ofString (← (← v.field? "file").text?)
    line := ← (← v.field? "line").word?
    column := ← (← v.field? "column").word?
    total := ← (← v.field? "total").word?
    contexts := ← (← v.field? "contexts").text?
    container := ← CompletionContainer.ofValue? (← v.field? "container")
    containerUsr := ← (← v.field? "container_usr").option? Value.text?
    entries := ← (← v.field? "completions").list? CompletionEntry.ofValue? }

theorem json_writes (r : CompletionReport) :
    Writes (Report.json r) r.paths fun j => ofValue? j.value = some r := by
  refine r.file.json_writes.map fun file hfile => ?_
  obtain ⟨s, hs, hfile⟩ := Option.map_eq_some_iff.mp hfile
  have hlist : Value.list? CompletionEntry.ofValue?
      (.array (values (r.entries.map CompletionEntry.json))) = some r.entries :=
    Value.list?_array <| List.forall₂_map_right_iff.mpr <|
      List.forall₂_same.mpr fun e _ => e.ofValue?_json
  simp [ofValue?, value, fields, Value.field?_cons_of_ne, CompletionContainer.ofValue?_json, hs,
    hfile, hlist]

end CompletionReport

/-! ## References -/

namespace ReferenceEntry

def ofValue? (v : Value) : Option ReferenceEntry := do
  return {
    name := ← (← v.field? "name").text?
    usr := ← (← v.field? "usr").option? Value.text?
    entityKind := ← (← v.field? "entity_kind").text?
    role := ← (← v.field? "role").text?
    location := ← (← v.field? "location").option? FileSpan.ofValue?
    parent := ← (← v.field? "parent").option? Value.text? }

theorem json_writes (e : ReferenceEntry) :
    Writes e.json e.paths fun j => ofValue? j.value = some e := by
  refine (FileSpan.jsonOption_writes e.location).map fun location hlocation => ?_
  simp [ofValue?, value, fields, Value.field?_cons_of_ne, hlocation]

end ReferenceEntry

namespace ReferencesReport

def ofValue? (v : Value) : Option ReferencesReport := do
  return ⟨Path.ofString (← (← v.field? "file").text?),
    ← (← v.field? "references").list? ReferenceEntry.ofValue?⟩

theorem json_writes (r : ReferencesReport) :
    Writes (Report.json r) r.paths fun j => ofValue? j.value = some r := by
  refine r.file.json_writes.bind fun file hfile => ?_
  refine (Writes.mapM fun e _ => e.json_writes).map fun entries hentries => ?_
  obtain ⟨s, hs, hfile⟩ := Option.map_eq_some_iff.mp hfile
  have hlist := Value.list?_array hentries
  simp [ofValue?, value, fields, Value.field?_cons_of_ne, hs, hfile, hlist]

end ReferencesReport

/-! ## Outlines -/

namespace OutlineEntry

mutual

def ofValue? : Value → Option OutlineEntry
  | .object fields => do
    return .mk (← (← (Value.object fields).field? "name").text?)
      (← (← (Value.object fields).field? "kind").text?)
      (← (← (Value.object fields).field? "span").option? FileSpan.ofValue?)
      (← (← (Value.object fields).field? "is_definition").truth?)
      (← (← (Value.object fields).field? "brief_comment").option? Value.text?)
      (← below? fields)
  | _ => none

/-- What is declared in a declaration with some fields: nothing, without a field for it. -/
def below? : List (String × Value) → Option (List OutlineEntry)
  | [] => some []
  | (name, v) :: rest => if name = "children" then list? v else below? rest

def list? : Value → Option (List OutlineEntry)
  | .array items => all? items
  | _ => none

def all? : List Value → Option (List OutlineEntry)
  | [] => some []
  | v :: rest => do
    let first ← ofValue? v
    return first :: (← all? rest)

end

theorem below?_cons_of_ne {name : String} (h : name ≠ "children") (v : Value)
    (rest : List (String × Value)) : below? ((name, v) :: rest) = below? rest := by
  rw [below?, if_neg h]

theorem below?_children (items : List Value) (rest : List (String × Value)) :
    below? (("children", .array items) :: rest) = all? items := by
  rw [below?, if_pos rfl, list?]

mutual

theorem json_writes : ∀ e : OutlineEntry,
    Writes e.json e.paths fun j => ofValue? j.value = some e
  | .mk name kind span isDefinition comment children => by
    rw [json, paths]
    refine (FileSpan.jsonOption_writes span).bind fun s hs => ?_
    refine (jsonAll_writes children).map fun inner hinner => ?_
    cases inner with
    | nil =>
      rw [values, all?, Option.some.injEq] at hinner
      simp [ofValue?, value, fields, Value.field?_cons_of_ne, below?, hs, hinner]
    | cons first rest =>
      simp [ofValue?, value, fields, Value.field?_cons_of_ne, below?_cons_of_ne, below?_children,
        hs, hinner]

theorem jsonAll_writes : ∀ entries : List OutlineEntry,
    Writes (jsonAll entries) (pathsAll entries) fun items => all? (values items) = some entries
  | [] => .pure rfl
  | e :: rest => by
    rw [jsonAll, pathsAll]
    refine (json_writes e).bind fun j hj => ?_
    refine (jsonAll_writes rest).map fun items hitems => ?_
    rw [values, all?, hj, hitems]
    rfl

end

end OutlineEntry

namespace OutlineReport

def ofValue? (v : Value) : Option OutlineReport := do
  return ⟨Path.ofString (← (← v.field? "file").text?), ← OutlineEntry.list? (← v.field? "symbols")⟩

theorem json_writes (r : OutlineReport) :
    Writes (Report.json r) r.paths fun j => ofValue? j.value = some r := by
  refine r.file.json_writes.bind fun file hfile => ?_
  refine (OutlineEntry.jsonAll_writes r.entries).map fun entries hentries => ?_
  obtain ⟨s, hs, hfile⟩ := Option.map_eq_some_iff.mp hfile
  simp [ofValue?, value, fields, Value.field?_cons_of_ne, OutlineEntry.list?, hs, hfile, hentries]

end OutlineReport

/-! ## All reports -/

/-- The reports of a type are printed as documents with one value each. The value gives a report
back up to what settles, and that alone decides what is printed. -/
structure ReadsBack {α : Type} [Report α] (paths : α → List Path) (ofValue? : Value → Option α)
    (settled : α → α) : Prop where
  document : ∀ r, (∀ p ∈ paths r, p.IsText) → ∃ text v, Report.print true r = .ok text ∧
    (∀ w, IsText w text ↔ w = v) ∧ document? text = some v ∧ ofValue? v = some (settled r)
  print_eq_iff : ∀ r r', (∀ p ∈ paths r, p.IsText) →
    (Report.print true r = Report.print true r' ↔ settled r = settled r')

section

variable {α : Type} [Report α] {paths : α → List Path} {ofValue? : Value → Option α}
  {settled : α → α}

theorem ReadsBack.of_writes
    (hwrites : ∀ r, Writes (Report.json r) (paths r) fun j => ofValue? j.value = some (settled r))
    (hsettled : ∀ r, Report.json (settled r) = Report.json r) :
    ReadsBack paths ofValue? settled where
  document r hpaths := by
    obtain ⟨j, hj, hback⟩ := (hwrites r).ok hpaths
    refine ⟨j.pretty ++ "\n", j.value, Report.print_ok_iff.mpr ⟨j, hj, rfl⟩, fun w => ?_,
      document?_pretty j, hback⟩
    constructor
    · intro hw
      exact Option.some.inj (hw.document?.symm.trans (document?_pretty j))
    · rintro rfl
      exact isText_pretty j
  print_eq_iff r r' hpaths := by
    constructor
    · intro hsame
      obtain ⟨j, hj, hback⟩ := (hwrites r).ok hpaths
      obtain ⟨j', hj', htext⟩ :=
        Report.print_ok_iff.mp (hsame.symm.trans (Report.print_ok_iff.mpr ⟨j, hj, rfl⟩))
      have hvalue : j.value = j'.value := by
        rw [← Option.some_inj, ← document?_pretty, ← document?_pretty, htext]
      have hback' := (hwrites r').of_ok hj'
      rw [← hvalue, hback] at hback'
      exact Option.some.inj hback'
    · intro hsame
      rw [Report.print, Report.print, ← hsettled r, hsame, hsettled r', if_pos rfl, if_pos rfl]

end

/-- **Reports read back.** What is printed for a report whose paths are texts is one document, and
every field of the report is read back from it. Reports that are printed alike are the same, except
that all severities without a name have one word. -/
theorem reports_read_back :
    ReadsBack VersionReport.paths VersionReport.ofValue? id ∧
      ReadsBack DiagnosticsReport.paths DiagnosticsReport.ofValue? DiagnosticsReport.settled ∧
      ReadsBack CompletionReport.paths CompletionReport.ofValue? id ∧
      ReadsBack ReferencesReport.paths ReferencesReport.ofValue? id ∧
      ReadsBack OutlineReport.paths OutlineReport.ofValue? id ∧
      ∀ n, Severity.label (.unknown n) = "unknown" :=
  ⟨.of_writes VersionReport.json_writes fun _ => rfl,
    .of_writes DiagnosticsReport.json_writes DiagnosticsReport.json_settled,
    .of_writes CompletionReport.json_writes fun _ => rfl,
    .of_writes ReferencesReport.json_writes fun _ => rfl,
    .of_writes OutlineReport.json_writes fun _ => rfl, fun _ => rfl⟩

/-- A diagnostic of a severity without a name, with texts that are empty and texts that are not
there. -/
def unnamedDiagnostic : DiagnosticsReport :=
  ⟨.ofString "é", [⟨.unknown 9, "\"\n", none, "", some "", some ⟨"-W", none⟩, [⟨none, ""⟩]⟩]⟩

/-- It is read back, and differs from one whose category is not there. -/
theorem unnamedDiagnostic_read_back :
    (∃ text v, Report.print true unnamedDiagnostic = .ok text ∧ (∀ w, IsText w text ↔ w = v) ∧
      document? text = some v ∧
      DiagnosticsReport.ofValue? v = some unnamedDiagnostic.settled) ∧
    Report.print true unnamedDiagnostic ≠ Report.print true (⟨.ofString "é",
      [⟨.unknown 9, "\"\n", none, "", none, some ⟨"-W", none⟩, [⟨none, ""⟩]⟩]⟩ :
        DiagnosticsReport) := by
  have hpaths : ∀ p ∈ unnamedDiagnostic.paths, p.IsText := by decide
  exact ⟨reports_read_back.2.1.document _ hpaths,
    fun h => absurd ((reports_read_back.2.1.print_eq_iff _ _ hpaths).mp h) (by decide)⟩

end ClangLens
