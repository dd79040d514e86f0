import ClangLens.Program
import ClangLens.Proofs.Reports.ReadingBack

/-!
# Paths that are no text

A report with such a path is not printed as JSON at all, wherever in it the path is. As text every
report is printed. What the text names is shown with the stray bytes replaced: the places of
fix-its, references and declarations, and the file that diagnostics or completions are about. The
place of a diagnostic, whose own words say that, and the file of an outline or of references need
not be shown.
-/

namespace ClangLens

/-- A text shows paths, each behind the one before: it is put together from their texts and other
texts. -/
inductive ShowsPaths : List Path → String → Prop where
  | other (s : String) : ShowsPaths [] s
  | path (p : Path) : ShowsPaths [p] p.text
  | append {ps qs : List Path} {s t : String} (h : ShowsPaths ps s) (h' : ShowsPaths qs t) :
      ShowsPaths (ps ++ qs) (s ++ t)

namespace ShowsPaths

variable {ps : List Path} {s : String}

theorem before (h : ShowsPaths ps s) (t : String) : ShowsPaths ps (s ++ t) := by
  have happend := h.append (.other t)
  rwa [List.append_nil] at happend

theorem behind (h : ShowsPaths ps s) (t : String) : ShowsPaths ps (t ++ s) :=
  (ShowsPaths.other t).append h

theorem join {β : Type} {paths : β → List Path} {text : β → String} {bs : List β}
    (h : ∀ b ∈ bs, ShowsPaths (paths b) (text b)) :
    ShowsPaths (bs.flatMap paths) (String.join (bs.map text)) := by
  induction bs with
  | nil => exact .other _
  | cons b bs ih =>
    rw [List.forall_mem_cons] at h
    rw [List.flatMap_cons, List.map_cons, String.join_cons]
    exact h.1.append (ih h.2)

/-- The text of each path is somewhere in the text. -/
theorem isInfix (h : ShowsPaths ps s) {p : Path} (hp : p ∈ ps) : p.text.toList <:+: s.toList := by
  induction h with
  | other s => cases hp
  | path q =>
    obtain rfl := List.mem_singleton.mp hp
    exact List.infix_rfl
  | append _ _ ih ih' =>
    rw [String.toList_append]
    obtain hp | hp := List.mem_append.mp hp
    · exact (ih hp).trans (List.prefix_append _ _).isInfix
    · exact (ih' hp).trans (List.suffix_append _ _).isInfix

end ShowsPaths

/-! ## Texts of reports -/

theorem FileSpan.shows (s : Option FileSpan) : ShowsPaths (paths s) (textOrUnknown s) := by
  cases s with
  | none => exact .other _
  | some s =>
    rw [textOrUnknown, text]
    repeat apply ShowsPaths.before
    exact .path s.file

theorem FixItEntry.shows (f : FixItEntry) : ShowsPaths f.paths f.text := by
  have hspan := FileSpan.shows f.span
  rw [text]
  split
  · exact (hspan.behind _).before _
  · exact (((hspan.behind _).before _).before _).before _

theorem ReferenceEntry.shows (e : ReferenceEntry) : ShowsPaths e.paths e.line := by
  rw [line]
  repeat apply ShowsPaths.before
  exact FileSpan.shows e.location

namespace OutlineEntry

mutual

theorem shows : ∀ (depth : Nat) (e : OutlineEntry), ShowsPaths e.paths (e.text depth)
  | depth, .mk name kind span isDefinition comment children => by
    rw [paths, text, line]
    refine .append ?_ (showsAll (depth + 1) children)
    exact (((FileSpan.shows span).behind _).before _).before _

theorem showsAll : ∀ (depth : Nat) (entries : List OutlineEntry),
    ShowsPaths (pathsAll entries) (textAll depth entries)
  | _, [] => .other _
  | depth, e :: rest => by
    rw [pathsAll, textAll]
    exact (shows depth e).append (showsAll depth rest)

end

end OutlineEntry

/-- The paths that the text about diagnostics shows, in order. -/
def DiagnosticsReport.shown (r : DiagnosticsReport) : List Path :=
  r.entries.flatMap (fun e => e.fixIts.flatMap FixItEntry.paths) ++ [r.file]

def ReferencesReport.shown (r : ReferencesReport) : List Path :=
  r.entries.flatMap ReferenceEntry.paths

def OutlineReport.shown (r : OutlineReport) : List Path := OutlineEntry.pathsAll r.entries

theorem DiagnosticEntry.shows (e : DiagnosticEntry) :
    ShowsPaths (e.fixIts.flatMap FixItEntry.paths) e.text :=
  (ShowsPaths.join fun f _ => f.shows).behind _

theorem DiagnosticsReport.shows (r : DiagnosticsReport) : ShowsPaths r.shown (Report.text r) := by
  refine .append (.join fun e _ => e.shows) ?_
  rw [summary]
  repeat apply ShowsPaths.before
  exact .path r.file

theorem CompletionReport.shows (r : CompletionReport) : ShowsPaths r.paths (Report.text r) := by
  rw [Report.text, instReport]
  dsimp only
  repeat apply ShowsPaths.before
  exact .path r.file

theorem ReferencesReport.shows (r : ReferencesReport) : ShowsPaths r.shown (Report.text r) :=
  ((ShowsPaths.join fun e _ => e.shows).before _).before _

theorem OutlineReport.shows (r : OutlineReport) : ShowsPaths r.shown (Report.text r) :=
  OutlineEntry.showsAll 0 r.entries

/-! ## All reports -/

/-- How the reports of a type are printed: not at all as JSON if a path is no text, and always as
text, which shows some of the paths. -/
structure Printing {α : Type} [Report α] (paths shown : α → List Path) : Prop where
  error_iff : ∀ r, Report.print true r = .error {} ↔ ∃ p ∈ paths r, ¬ p.IsText
  silent : ∀ r status, (∃ p ∈ paths r, ¬ p.IsText) → (Ending.ofReport true status r).output = ""
  text : ∀ r, ∃ t, Report.print false r = .ok t ∧ ShowsPaths (shown r) t

theorem Printing.of_writes {α : Type} [Report α] {paths shown : α → List Path} {q : α → Json → Prop}
    (hwrites : ∀ r, Writes (Report.json r) (paths r) (q r))
    (hshows : ∀ r, ShowsPaths (shown r) (Report.text r)) : Printing paths shown := by
  have herror : ∀ r, Report.print true r = .error {} ↔ ∃ p ∈ paths r, ¬ p.IsText := by
    intro r
    rw [← (hwrites r).error_iff, Report.print, if_pos rfl]
    cases Report.json r with
    | ok j =>
      refine iff_of_false ?_ ?_
      all_goals
        intro h
        cases h
    | error u => exact iff_of_true rfl rfl
  refine ⟨herror, fun r status hbad => ?_, fun r => ⟨Report.text r, rfl, hshows r⟩⟩
  rw [Ending.ofReport, (herror r).mpr hbad]
  rfl

/-- **Paths that are no text.** As JSON a report of any kind is refused exactly if one of its paths
is no text, and then nothing is printed. As text it is always printed; the paths of fix-its,
references and declarations at any depth and the file that diagnostics or completions are about are
shown in order, with each stretch of stray bytes replaced and nothing else. -/
theorem reports_printed :
    Printing VersionReport.paths (fun _ => []) ∧
      Printing DiagnosticsReport.paths DiagnosticsReport.shown ∧
      Printing CompletionReport.paths CompletionReport.paths ∧
      Printing ReferencesReport.paths ReferencesReport.shown ∧
      Printing OutlineReport.paths OutlineReport.shown ∧
      ∀ p : Path, (Utf8.pieces p.bytes).flatMap Utf8.Piece.bytes = p.bytes ∧
        p.text = String.ofList ((Utf8.pieces p.bytes).map Utf8.Piece.shown) ∧
        (p.IsText ↔ ∀ piece ∈ Utf8.pieces p.bytes, piece.char?.isSome) :=
  ⟨.of_writes VersionReport.json_writes fun _ => .other _,
    .of_writes DiagnosticsReport.json_writes DiagnosticsReport.shows,
    .of_writes CompletionReport.json_writes CompletionReport.shows,
    .of_writes ReferencesReport.json_writes ReferencesReport.shows,
    .of_writes OutlineReport.json_writes OutlineReport.shows,
    fun p => ⟨Utf8.flatMap_pieces p.bytes, rfl, Utf8.isSome_decode?_iff⟩⟩

/-- An outline with such a path in a declaration within another is not printed. -/
theorem inner_path_silent :
    (Ending.ofReport true 0 (⟨.ofString "a.c", [.mk "s" "" none true none
      [.mk "f" "" (some (.point ⟨[0x62, 0xFF]⟩ ⟨1, 1⟩)) true none []]]⟩ : OutlineReport)).output =
        "" :=
  reports_printed.2.2.2.2.1.silent _ 0 ⟨⟨[0x62, 0xFF]⟩, by decide, by decide⟩

/-- A path in a report that is no text, and that the text of the report does not show. -/
def Hidden {α : Type} [Report α] (paths : α → List Path) (r : α) (p : Path) : Prop :=
  p ∈ paths r ∧ ¬ p.IsText ∧ ∃ t, Report.print false r = .ok t ∧ ¬ ShowsPaths [p] t

/-- The file of an outline or of references and the place of a diagnostic need not be shown. -/
theorem hidden_paths :
    Hidden OutlineReport.paths ⟨⟨[0xFF]⟩, []⟩ ⟨[0xFF]⟩ ∧
      Hidden ReferencesReport.paths ⟨⟨[0xFF]⟩, []⟩ ⟨[0xFF]⟩ ∧
      Hidden DiagnosticsReport.paths
        ⟨.ofString "a.c", [⟨.named .error, "", some (.point ⟨[0xFF]⟩ ⟨1, 1⟩), "", none, none, []⟩]⟩
        ⟨[0xFF]⟩ := by
  have hidden : ∀ {t : String}, Utf8.replacement ∉ t.toList → ¬ ShowsPaths [⟨[0xFF]⟩] t := by
    intro t ht hshows
    exact ht ((hshows.isInfix List.mem_cons_self).subset (by decide))
  refine ⟨⟨by decide, by decide, _, rfl, hidden ?_⟩, ⟨by decide, by decide, _, rfl, hidden ?_⟩,
    ⟨by decide, by decide, _, rfl, hidden ?_⟩⟩
  all_goals decide +kernel

end ClangLens
