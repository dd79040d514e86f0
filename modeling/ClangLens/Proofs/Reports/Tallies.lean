import Mathlib.Algebra.GroupWithZero.Nat
import ClangLens.Proofs.Reports.Unquoting
import ClangLens.Proofs.Running
import ClangLens.Script.Library

/-!
# Counting diagnostics

The text about the diagnostics of a file has a line for each diagnostic, below it a line for each of
its fix-its, and a last line that counts. Errors are counted severity by severity there, and asked
for by one question elsewhere. Both agree, so the last line tells how the program ends.
-/

namespace ClangLens

open Dialogue

/-! ## Lines -/

/-- The line of a fix-it. -/
def FixItEntry.line (f : FixItEntry) : String :=
  if f.replacement = "" then "  fix-it: remove " ++ f.span.elim "<unknown>" FileSpan.text
  else
    "  fix-it: replace " ++ f.span.elim "<unknown>" FileSpan.text ++ " with "
      ++ Quoted.text f.replacement

/-- The lines of a diagnostic. -/
def DiagnosticEntry.lines (e : DiagnosticEntry) : List String :=
  e.formatted :: e.fixIts.map FixItEntry.line

namespace DiagnosticsReport

/-- How many diagnostics are errors. -/
def errors (r : DiagnosticsReport) : ℕ := r.entries.countP fun e => Severity.isError e.severity

/-- How many diagnostics are warnings. -/
def warnings (r : DiagnosticsReport) : ℕ :=
  r.entries.countP fun e => e.severity = .named .warning

/-- What the last line says of the file. -/
def tally (r : DiagnosticsReport) : String :=
  ": " ++ toString r.entries.length ++ " diagnostics (" ++ toString r.errors ++ " errors, "
    ++ toString r.warnings ++ " warnings)"

def lines (r : DiagnosticsReport) : List String :=
  r.entries.flatMap DiagnosticEntry.lines ++ [r.file.text ++ r.tally]

end DiagnosticsReport

theorem FixItEntry.text_eq (f : FixItEntry) : f.text = f.line ++ "\n" := by
  unfold text line
  rw [FileSpan.textOrUnknown_eq]
  split
  · rfl
  · rfl

theorem FixItEntry.oneLine_line {f : FixItEntry} (h : ∀ p ∈ f.paths, Path.feed ∉ p.bytes) :
    OneLine f.line := by
  have hspan : OneLine (f.span.elim "<unknown>" FileSpan.text) := FileSpan.oneLine_elim h
  unfold line
  split
  · exact oneLine_append.mpr ⟨by decide, hspan⟩
  · simp only [oneLine_append]
    exact ⟨⟨⟨by decide, hspan⟩, by decide⟩, Quoted.oneLine_text _⟩

theorem DiagnosticEntry.text_eq (e : DiagnosticEntry) : e.text = unlines e.lines := by
  have hfixIts : e.fixIts.map FixItEntry.text = (e.fixIts.map FixItEntry.line).map (· ++ "\n") := by
    rw [List.map_map]
    exact List.map_congr_left fun f _ => f.text_eq
  rw [text, hfixIts, lines, unlines_cons]
  rfl

theorem DiagnosticEntry.length_lines (e : DiagnosticEntry) :
    e.lines.length = 1 + e.fixIts.length := by
  rw [lines, List.length_cons, List.length_map, Nat.add_comm]

namespace DiagnosticsReport

variable (r : DiagnosticsReport)

/-! ## Counts -/

theorem isError_iff {severity : Coded Severity} :
    Severity.isError severity ↔ severity = .named .error ∨ severity = .named .fatal := by
  unfold Severity.isError
  split <;> simp_all

/-- The two severities that are counted as errors are those that are asked for. -/
theorem count_errors : r.count (.named .error) + r.count (.named .fatal) = r.errors := by
  unfold count errors
  induction r.entries with
  | nil => rfl
  | cons e entries ih =>
    rw [List.countP_cons, List.countP_cons, List.countP_cons, ← ih]
    by_cases herror : e.severity = .named .error
    · simp [herror, Severity.isError]
      omega
    · by_cases hfatal : e.severity = .named .fatal
      · simp [hfatal, Severity.isError]
        omega
      · have hnone : ¬Severity.isError e.severity := by simp [isError_iff, herror, hfatal]
        simp [herror, hfatal, hnone]

theorem count_warnings : r.count (.named .warning) = r.warnings := rfl

theorem hasErrors_iff : r.hasErrors ↔ r.errors ≠ 0 := by
  rw [hasErrors, errors, List.any_eq_true, ← Nat.pos_iff_ne_zero, List.countP_pos_iff]

/-! ## Texts -/

theorem text_entries : String.join (r.entries.map DiagnosticEntry.text) =
    unlines (r.entries.flatMap DiagnosticEntry.lines) := by
  induction r.entries with
  | nil => rfl
  | cons e entries ih =>
    rw [List.map_cons, String.join_cons, ih, List.flatMap_cons, unlines_append, e.text_eq]

theorem summary_eq : r.summary = r.file.text ++ r.tally ++ "\n" := by
  rw [summary, count_errors, count_warnings, tally]
  simp [String.append_assoc]

theorem text_eq_entries : Report.text r =
    unlines (r.entries.flatMap DiagnosticEntry.lines) ++ (r.file.text ++ r.tally ++ "\n") := by
  rw [← text_entries, ← summary_eq]
  rfl

theorem text_eq : Report.text r = unlines r.lines := by
  rw [text_eq_entries, lines, unlines_append, unlines_singleton]

theorem length_lines :
    r.lines.length = 1 + (r.entries.map fun e => 1 + e.fixIts.length).sum := by
  simp only [lines, List.length_append, List.length_flatMap, DiagnosticEntry.length_lines]
  rw [List.length_singleton, Nat.add_comm]

theorem oneLine_tally : OneLine r.tally := by
  unfold tally
  simp only [oneLine_append]
  exact ⟨⟨⟨⟨⟨⟨by decide, oneLine_toString _⟩, by decide⟩, oneLine_toString _⟩, by decide⟩,
    oneLine_toString _⟩, by decide⟩

variable {r}

theorem oneLine_of_mem_lines (hformatted : ∀ e ∈ r.entries, OneLine e.formatted)
    (hshown : ∀ p ∈ r.shown, Path.feed ∉ p.bytes) {l : String} (hl : l ∈ r.lines) : OneLine l := by
  unfold shown at hshown
  rw [List.forall_mem_append] at hshown
  rw [lines, List.mem_append, List.mem_flatMap, List.mem_singleton] at hl
  obtain ⟨e, he, hl⟩ | rfl := hl
  · obtain rfl | hl := List.mem_cons.mp hl
    · exact hformatted e he
    · obtain ⟨f, hf, rfl⟩ := List.mem_map.mp hl
      refine FixItEntry.oneLine_line fun p hp => hshown.1 p ?_
      exact List.mem_flatMap.mpr ⟨e, he, List.mem_flatMap.mpr ⟨f, hf, hp⟩⟩
  · refine oneLine_append.mpr ⟨Path.oneLine_text (hshown.2 _ List.mem_cons_self), r.oneLine_tally⟩

/-- Where a name has line feeds, the last line begins behind the last of them. -/
theorem getLast?_linesOf {front back : String} (hfile : r.file.text = front ++ back)
    (hfront : Ended front) (hback : OneLine back) :
    (linesOf (Report.text r)).getLast? = some (back ++ r.tally) := by
  have hlast : OneLine (back ++ r.tally) := oneLine_append.mpr ⟨hback, r.oneLine_tally⟩
  have htext : Report.text r = unlines (r.entries.flatMap DiagnosticEntry.lines) ++
      (front ++ (back ++ r.tally ++ "\n")) := by
    rw [text_eq_entries, hfile]
    simp only [String.append_assoc]
  rw [htext, linesOf_append (.unlines _), linesOf_append hfront, linesOf_line hlast,
    ← List.append_assoc, List.getLast?_concat]

/-! ## Endings -/

/-- How the program ends with a report: with what is printed of it, and well if nothing in it is an
error, or with the complaint that it cannot be written. -/
inductive Reported (asJson : Bool) (r : DiagnosticsReport) : Ending → Prop where
  | printed {output : String} (h : Report.print asJson r = .ok output) :
      Reported asJson r ⟨if r.errors = 0 then 0 else 1, output, none⟩
  | unwritable {u : Unwritable} (h : Report.print asJson r = .error u) :
      Reported asJson r (.unwritable u)

theorem reported_ofReport (asJson : Bool) :
    Reported asJson r (.ofReport asJson (if r.hasErrors then 1 else 0) r) := by
  have hstatus : (if r.hasErrors then 1 else 0) = if r.errors = 0 then 0 else 1 := by
    by_cases h : r.errors = 0
    · rw [if_neg (by simp [hasErrors_iff, h]), if_pos h]
    · rw [if_pos (r.hasErrors_iff.mpr h), if_neg h]
  unfold Ending.ofReport
  split
  next h => exact hstatus ▸ .printed h
  next h => exact .unwritable h

/-- What the text about diagnostics tells. -/
structure Tallied (r : DiagnosticsReport) : Prop where
  /-- The last line counts them all, the errors and the warnings. -/
  last : ∃ front back, r.file.text = front ++ back ∧ Ended front ∧ OneLine back ∧
    (linesOf (Report.text r)).getLast? = some (back ++ r.tally)
  hasErrors_iff : r.hasErrors ↔ r.errors ≠ 0
  /-- There are no other lines, and replacements begin none. -/
  lines : (∀ e ∈ r.entries, OneLine e.formatted) → (∀ p ∈ r.shown, Path.feed ∉ p.bytes) →
    linesOf (Report.text r) = r.lines ∧
      (linesOf (Report.text r)).length = 1 + (r.entries.map fun e => 1 + e.fixIts.length).sum
  readBack : ∀ e ∈ r.entries, ∀ f ∈ e.fixIts, f.replacement ≠ "" →
    f.line = "  fix-it: replace " ++ f.span.elim "<unknown>" FileSpan.text ++ " with "
        ++ Quoted.text f.replacement ∧
      Quoted.read? (Quoted.text f.replacement) = some f.replacement

theorem tallied (r : DiagnosticsReport) : r.Tallied where
  last := by
    obtain ⟨front, back, hfile, hfront, hback⟩ := Ended.exists_split r.file.text
    exact ⟨front, back, hfile, hfront, hback, getLast?_linesOf hfile hfront hback⟩
  hasErrors_iff := r.hasErrors_iff
  lines hformatted hshown := by
    have hlines : linesOf (Report.text r) = r.lines := by
      rw [r.text_eq]
      exact linesOf_unlines fun l => oneLine_of_mem_lines hformatted hshown
    exact ⟨hlines, hlines ▸ r.length_lines⟩
  readBack e _ f _ hreplacement := ⟨if_neg hreplacement, Quoted.read?_text f.replacement⟩

end DiagnosticsReport

section

variable {L : Type} {library : Library L} {depth : ℕ} {around : Surroundings} {asJson : Bool}
  {command : Subcommand} {loading : Loading} {ending : Ending} {l l₁ l₂ : L}

theorem Program.perform_diagnostics {file : Path} {args : List String} {r : DiagnosticsReport}
    (h : (Command.diagnostics around file args).run library l = (some (.ok r), l₁)) :
    (perform depth around asJson (.diagnostics file args)).run library l =
      (some (.ofReport asJson (if r.hasErrors then 1 else 0) r), l₁) :=
  run_bind h _

/-- With the library loaded, the program ends as the command does. -/
theorem Program.withLibrary_run
    (hload : (Loading.load around.logged .idle).run library l = (some (.ok (), loading), l₁))
    (h : (perform depth around asJson command).run library l₁ = (some ending, l₂)) :
    ∃ l', (withLibrary depth around asJson command).run library l = (some ending, l') := by
  rw [withLibrary, bind_eq, run_bind hload]
  dsimp only
  rw [bind_eq, run_bind h]
  split
  · exact ⟨l₂, rfl⟩
  · exact ⟨_, rfl⟩

end

/-- **Counting diagnostics.** The last line of the text about diagnostics says how many there are
and how many of them are errors and warnings, and the program that prints a report ends well exactly
if that line says that there are no errors. Where no message and no path begins a line there is one
line for each diagnostic and each fix-it, in order, in front of it; each replacement is read back
from its line. -/
theorem diagnostics_tallied :
    (∀ r : DiagnosticsReport, r.Tallied) ∧
      ∀ (L : Type) (library : Library L) (l l₁ l₂ : L) (depth : ℕ) (around : Surroundings)
        (asJson : Bool) (file : Path) (args : List String) (loading : Loading)
        (r : DiagnosticsReport),
        (Loading.load around.logged .idle).run library l = (some (.ok (), loading), l₁) →
        (Command.diagnostics around file args).run library l₁ = (some (.ok r), l₂) →
        ∃ ending l', (Program.withLibrary depth around asJson (.diagnostics file args)).run library
          l = (some ending, l') ∧ r.Reported asJson ending := by
  refine ⟨DiagnosticsReport.tallied, ?_⟩
  intro L library l l₁ l₂ depth around asJson file args loading r hload hreport
  obtain ⟨l', hrun⟩ := Program.withLibrary_run hload (Program.perform_diagnostics hreport)
  exact ⟨_, l', hrun, DiagnosticsReport.reported_ofReport asJson⟩

/-- A unit with an error, a fatal error, a warning and a diagnostic of an unknown severity. The one
replacement has a line feed and a quote in it. -/
def brokenScript : Script where
  files := [{ name := some (Utf8.encode "a.c") }]
  diagnostics := [
    { severity := 3, format := some (Utf8.encode "a.c:1:1: error"),
      fixIts := [{ replacement := some (Utf8.encode "\n\"") }] },
    { severity := 4, format := some (Utf8.encode "a.c:2:1: fatal") },
    { severity := 2, format := some (Utf8.encode "a.c:3:1: warning") },
    { severity := 9, format := some (Utf8.encode "a.c:4:1: other") }]
  unitDiagnostics := [some ⟨0⟩, some ⟨1⟩, some ⟨2⟩, some ⟨3⟩]

def brokenReport : DiagnosticsReport :=
  ⟨.ofString "a.c",
    [⟨.named .error, "", none, "a.c:1:1: error", none, none, [⟨none, "\n\""⟩]⟩,
      ⟨.named .fatal, "", none, "a.c:2:1: fatal", none, none, []⟩,
      ⟨.named .warning, "", none, "a.c:3:1: warning", none, none, []⟩,
      ⟨.unknown 9, "", none, "a.c:4:1: other", none, none, []⟩]⟩

theorem brokenReport_tallied :
    linesOf (Report.text brokenReport) =
        ["a.c:1:1: error", "  fix-it: replace <unknown> with \"\\n\\\"\"", "a.c:2:1: fatal",
          "a.c:3:1: warning", "a.c:4:1: other", "a.c: 4 diagnostics (2 errors, 1 warnings)"] ∧
      ∃ l', (Program.withLibrary 0 ⟨fun _ => none, none, false⟩ false
          (.diagnostics (.ofString "a.c") [])).run brokenScript.library {} =
        (some ⟨1, Report.text brokenReport, none⟩, l') := by
  obtain ⟨htallied, hprogram⟩ := diagnostics_tallied
  obtain ⟨hlines, -⟩ := (htallied brokenReport).lines (by decide) (by decide +kernel)
  obtain ⟨ending, l', hrun, hreported⟩ := hprogram _ brokenScript.library {} _ _ 0
    ⟨fun _ => none, none, false⟩ false (.ofString "a.c") [] .loaded brokenReport
    (Prod.ext (by decide +kernel) rfl) (Prod.ext (by decide +kernel) rfl)
  refine ⟨hlines.trans (by decide +kernel), l', ?_⟩
  cases hreported with
  | printed hprint =>
    obtain rfl := Except.ok.inj hprint
    exact hrun
  | unwritable hprint => cases hprint

end ClangLens
