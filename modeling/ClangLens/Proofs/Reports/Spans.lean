import ClangLens.Proofs.Json.Records
import ClangLens.Proofs.Reports.ReadingBack

/-!
# The texts of a span

A span in a file is three records one in the other. It is read from every text in which each of
them is written as a record, and refused where one of them has a flaw: a field too few or too many,
or a number that is no word.
-/

namespace ClangLens

open Json

/-! ## Positions -/

namespace Position

/-- A number that is a word. -/
def IsWord (w : UInt32) (v : Value) : Prop := v = .number (.ofNat w.toNat)

/-- A number that is none. -/
def IsNoWord (v : Value) : Prop := ∃ n : Numeral, n.IsNoWord ∧ v = .number n

def Written (p : Position) : Value → Prop :=
  Record "line" (IsWord p.line) "column" (IsWord p.column)

def Flawed (p : Position) : Value → Prop :=
  Json.Flawed "line" (IsWord p.line) IsNoWord "column" (IsWord p.column) IsNoWord

def lineField : RecordField UInt32 := ⟨"line", Reading.asWord⟩

def columnField : RecordField UInt32 := ⟨"column", Reading.asWord⟩

variable {p : Position} {v : Value}

theorem ofReading_eq :
    ofReading = fun r => (fun x => ⟨x.1, x.2⟩) <$> lineField.pair columnField r := rfl

theorem columnField_ne : columnField.name ≠ lineField.name := by decide

theorem answers_of_isWord (w : UInt32) : ∀ v, IsWord w v → v.Answers Reading.asWord (.ok w) := by
  rintro _ rfl
  exact Value.answers_word w

theorem answers_of_isNoWord : ∀ v, IsNoWord v → v.Answers Reading.asWord (.error .mismatched) := by
  rintro _ ⟨n, hn, rfl⟩
  exact Value.answers_noWord hn

theorem Written.answers (h : p.Written v) : v.Answers ofReading (.ok p) := by
  have hpair : v.Answers (lineField.pair columnField) (.ok (p.line, p.column)) :=
    Record.answers columnField_ne (answers_of_isWord _) (answers_of_isWord _) h
  rw [ofReading_eq]
  exact hpair.map _

theorem Flawed.answers (h : p.Flawed v) : v.Answers ofReading (.error .mismatched) := by
  have hpair : v.Answers (lineField.pair columnField) (.error .mismatched) :=
    Json.Flawed.answers columnField_ne (answers_of_isWord p.line) answers_of_isNoWord
      (answers_of_isWord p.column) answers_of_isNoWord h
  rw [ofReading_eq]
  exact hpair.map _

theorem written_json (p : Position) : p.Written p.json.value :=
  .object rfl rfl (List.forall_mem_nil _) (List.Perm.refl _)

end Position

/-! ## Spans without a file -/

namespace Span

def Written (s : Span) : Value → Prop := Record "start" s.start.Written "end" s.stop.Written

def Flawed (s : Span) : Value → Prop :=
  Json.Flawed "start" s.start.Written s.start.Flawed "end" s.stop.Written s.stop.Flawed

def startField : RecordField Position := ⟨"start", Position.ofReading⟩

def stopField : RecordField Position := ⟨"end", Position.ofReading⟩

variable {s : Span} {v : Value}

theorem ofReading_eq :
    ofReading = fun r => (fun x => ⟨x.1, x.2⟩) <$> startField.pair stopField r := rfl

theorem stopField_ne : stopField.name ≠ startField.name := by decide

theorem Written.answers (h : s.Written v) : v.Answers ofReading (.ok s) := by
  have hpair : v.Answers (startField.pair stopField) (.ok (s.start, s.stop)) :=
    Record.answers stopField_ne (fun _ h => h.answers) (fun _ h => h.answers) h
  rw [ofReading_eq]
  exact hpair.map _

theorem Flawed.answers (h : s.Flawed v) : v.Answers ofReading (.error .mismatched) := by
  have hpair : v.Answers (startField.pair stopField) (.error .mismatched) :=
    Json.Flawed.answers stopField_ne (fun _ h => Position.Written.answers h)
      (fun _ h => Position.Flawed.answers h) (fun _ h => Position.Written.answers h)
      (fun _ h => Position.Flawed.answers h) h
  rw [ofReading_eq]
  exact hpair.map _

theorem written_json (s : Span) : s.Written s.json.value :=
  .object s.start.written_json s.stop.written_json (List.forall_mem_nil _) (List.Perm.refl _)

end Span

/-! ## Spans in a file -/

namespace FileSpan

/-- A text that is spelled so. -/
def IsSpelled (t : String) (v : Value) : Prop := v = .string t

/-- The values a span is read from. -/
def Written (s : FileSpan) (v : Value) : Prop :=
  ∃ t, Path.ofString t = s.file ∧
    Record "file_path" (IsSpelled t) "span" s.span.Written v

/-- The values of a span with a flaw, at whatever level. -/
def Flawed (s : FileSpan) (v : Value) : Prop :=
  ∃ t, Path.ofString t = s.file ∧
    Json.Flawed "file_path" (IsSpelled t) (fun _ => False) "span" s.span.Written s.span.Flawed v

def fileField : RecordField String := ⟨"file_path", Reading.asText⟩

def spanField : RecordField Span := ⟨"span", Span.ofReading⟩

variable {s : FileSpan} {v : Value}

theorem ofReading_eq :
    ofReading = fun r => (fun x => ⟨Path.ofString x.1, x.2⟩) <$> fileField.pair spanField r := rfl

theorem spanField_ne : spanField.name ≠ fileField.name := by decide

theorem answers_of_isSpelled (t : String) :
    ∀ v, IsSpelled t v → v.Answers Reading.asText (.ok t) := by
  rintro _ rfl
  exact Value.answers_asText t

theorem Written.answers (h : s.Written v) : v.Answers ofReading (.ok s) := by
  obtain ⟨t, ht, h⟩ := h
  have hpair : v.Answers (fileField.pair spanField) (.ok (t, s.span)) :=
    Record.answers spanField_ne (answers_of_isSpelled t) (fun _ h => Span.Written.answers h) h
  have hspan := hpair.map fun x => (⟨Path.ofString x.1, x.2⟩ : FileSpan)
  rw [Except.map_ok, ht] at hspan
  rw [ofReading_eq]
  exact hspan

theorem Flawed.answers (h : s.Flawed v) : v.Answers ofReading (.error .mismatched) := by
  obtain ⟨t, -, h⟩ := h
  have hpair : v.Answers (fileField.pair spanField) (.error .mismatched) :=
    Json.Flawed.answers spanField_ne (answers_of_isSpelled t) (fun _ h => h.elim)
      (fun _ h => Span.Written.answers h) (fun _ h => Span.Flawed.answers h) h
  rw [ofReading_eq]
  exact hpair.map _

theorem json_written (hfile : s.file.IsText) : ∃ j, s.json = .ok j ∧ s.Written j.value := by
  obtain ⟨t, ht⟩ := Option.isSome_iff_exists.mp hfile
  obtain ⟨u, hu⟩ := Path.isText_iff.mp hfile
  have htext : s.file.json = .ok (.string t) := by rw [Path.json, ht]
  have hjson : s.json = .ok (.object [("file_path", .string t), ("span", s.span.json)]) := by
    rw [json, htext]
    rfl
  have hpath : Path.ofString t = s.file := by
    rw [hu, Path.text?, Path.ofString, Utf8.decode?_encode] at ht
    cases ht
    exact hu.symm
  exact ⟨_, hjson, t, hpath,
    .object rfl s.span.written_json (List.forall_mem_nil _) (List.Perm.refl _)⟩

/-- **Spans.** A span in a file whose path is text is written, and read back from the line it is
written on. From every text of it, whatever the form of its three records, it is read as it is, and
a text with a flaw in one of them is no span. -/
theorem read_from_texts (s : FileSpan) :
    (s.file.IsText → ∃ j, s.json = .ok j ∧ ofText j.compact = .ok s ∧ s.Written j.value) ∧
    (∀ v text, s.Written v → IsText v text → ofText text = .ok s) ∧
    (∀ v text, s.Flawed v → IsText v text → ofText text = .error .mismatched) := by
  refine ⟨?_, ?_, ?_⟩
  · intro hfile
    obtain ⟨j, hj, hwritten⟩ := json_written hfile
    exact ⟨j, hj, hwritten.answers.readAs (isText_compact j), hwritten⟩
  · intro v text hwritten htext
    exact hwritten.answers.readAs htext
  · intro v text hflawed htext
    exact hflawed.answers.readAs htext

/-- Fields that are swapped, an array for a position and a field that is read past; and a column
that is one too large for a word. -/
theorem read_from_texts_swapped :
    (∃ j, json ⟨Path.ofString "a.c", ⟨1, 2⟩, ⟨3, 4⟩⟩ = .ok j ∧
      ofText j.compact = .ok ⟨Path.ofString "a.c", ⟨1, 2⟩, ⟨3, 4⟩⟩) ∧
    ofText ((Json.object [("span", .object [("start", .object [("column", .number 2),
      ("line", .number 1)]), ("end", .array [.number 3, .number 4])]), ("note", .null),
      ("file_path", .string "a.c")]).pretty ++ "\n") =
        .ok ⟨Path.ofString "a.c", ⟨1, 2⟩, ⟨3, 4⟩⟩ ∧
    ofText (Json.object [("file_path", .string "a.c"), ("span", .array [.array [.number 1,
      .number 2], .object [("line", .number 3), ("column", .number 4294967296)]])]).compact =
        .error .mismatched := by
  obtain ⟨hjson, hwritten, hflawed⟩ := read_from_texts ⟨Path.ofString "a.c", ⟨1, 2⟩, ⟨3, 4⟩⟩
  have hnone (first second : String) :
      ∀ f ∈ ([] : List (String × Value)), f.1 ≠ first ∧ f.1 ≠ second := List.forall_mem_nil _
  refine ⟨?_, hwritten _ _ ?_ (isText_pretty _), hflawed _ _ ?_ (isText_compact _)⟩
  · obtain ⟨j, hj, hread, -⟩ := hjson rfl
    exact ⟨j, hj, hread⟩
  · have hstart : Position.Written ⟨1, 2⟩ (.object [("column", .number (.ofNat 2)),
        ("line", .number (.ofNat 1))]) := .object rfl rfl (hnone _ _) (List.Perm.swap _ _ _)
    have hnote : ∀ f ∈ [("note", Value.null)], f.1 ≠ "file_path" ∧ f.1 ≠ "span" := by
      intro f hf
      obtain rfl := List.mem_singleton.mp hf
      decide
    exact ⟨"a.c", rfl, .object rfl (.object hstart (.array rfl rfl) (hnone _ _) (List.Perm.refl _))
      hnote (List.perm_append_singleton _ [_, _])⟩
  · have hsize : 4294967296 < UInt64.size := by decide
    have hlarge : (Numeral.ofNat 4294967296).IsNoWord := by
      refine ⟨Numeral.tooLarge_ofNat hsize, .inr (.inr (.inr ?_))⟩
      exact Nat.le_of_eq (Numeral.value_digitsOf UInt32.size).symm
    have hstop : Position.Flawed ⟨3, 4⟩ (.object [("line", .number (.ofNat 3)),
        ("column", .number (.ofNat 4294967296))]) :=
      .second (.object rfl ⟨_, hlarge, rfl⟩ (hnone _ _) (List.Perm.refl _))
    exact ⟨"a.c", rfl, .second (.object rfl (.second (.array (.array rfl rfl) hstop)) (hnone _ _)
      (List.Perm.refl _))⟩

end FileSpan

end ClangLens
