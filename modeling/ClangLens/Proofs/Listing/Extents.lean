import ClangLens.Command.Diagnostics
import ClangLens.Command.Outline
import ClangLens.Proofs.Ensuring
import ClangLens.Script.Library

/-!
# Both ends of a span

The span of a stretch of source has the name of the file its start is spelled in, and the positions
of both ends. In which file the end is spelled plays no part. So a span lies in the file it names
where the library spells both ends in one file, and else it is a mixture of two.
-/

namespace ClangLens

open Dialogue

/-! ## Surveys -/

/-- What is asked about a stretch of source for its span, with the answers. -/
structure Survey where
  extent : Extent
  start : Location
  first : PlaceAnswer
  stop : Location
  last : PlaceAnswer
  file : File
  string : Option ForeignString
  bytes : Option Bytes

namespace Survey

/-- The calls of a survey, in order. -/
def calls (v : Survey) : List Exchange :=
  [⟨.number (.extentIsNull v.extent), 0⟩, ⟨.location (.startOf v.extent), v.start⟩,
    ⟨.place (.spelling v.start), v.first⟩, ⟨.location (.stopOf v.extent), v.stop⟩,
    ⟨.place (.spelling v.stop), v.last⟩, ⟨.text (.fileName v.file), v.string⟩,
    ⟨.stringBytes v.string, v.bytes⟩]

/-- The span that a survey gives. -/
def span (v : Survey) : FileSpan :=
  ⟨Path.ofString (ForeignString.read v.bytes),
    ⟨v.first.line, v.first.column⟩, ⟨v.last.line, v.last.column⟩⟩

/-- A survey among calls, of a stretch that starts in the file whose name is asked for. -/
structure Among (v : Survey) (calls : List Exchange) : Prop where
  made : v.calls <:+: calls
  named : v.first.file = some v.file

theorem Among.mono {v : Survey} {calls more : List Exchange} (h : v.Among calls)
    (hcalls : calls <+: more) : v.Among more :=
  ⟨h.made.trans hcalls.isInfix, h.named⟩

end Survey

/-- A span given by a survey among calls. -/
def Surveyed (calls : List Exchange) (s : FileSpan) : Prop :=
  ∃ v : Survey, v.Among calls ∧ v.span = s

theorem Surveyed.lasting (s : FileSpan) : Lasting (Surveyed · s) := by
  rintro calls more hcalls ⟨v, hv, hs⟩
  exact ⟨v, hv.mono hcalls, hs⟩

variable {calls : List Exchange}

/-- **Stretches.** The span of a stretch is given by a survey of it. -/
theorem Extent.span?_ensures (e : Extent) :
    e.span?.Ensures calls fun calls' span? => ∀ s ∈ span?, Surveyed calls' s := by
  intro null
  by_cases hnull : null = 0
  · subst hnull
    intro start first stop last
    show Ensures ((Place.ofAnswer first).fileName? >>= _) _ _
    cases hfile : first.file with
    | none =>
      rw [Place.fileName?, Place.ofAnswer, hfile]
      exact ensures_none
    | some file =>
      rw [Place.fileName?, Place.ofAnswer, hfile]
      intro string bytes released s hs
      cases hs
      let v : Survey := ⟨e, start, first, stop, last, file, string, bytes⟩
      refine ⟨v, ⟨⟨calls, [⟨.release (.string string), released⟩], ?_⟩, hfile⟩, rfl⟩
      simp only [Survey.calls, v, List.append_assoc, List.cons_append, List.nil_append]
  · have hanswer : decide (null ≠ 0) = true := decide_eq_true hnull
    show Ensures (if decide (null ≠ 0) = true then _ else _) _ _
    rw [if_pos hanswer]
    exact ensures_none

/-! ## Reports -/

mutual

/-- The spans of a declaration and of what is declared in it. -/
def OutlineEntry.spans : OutlineEntry → List FileSpan
  | .mk _ _ span _ _ children => span.toList ++ spansAll children

/-- The spans of several declarations. -/
def OutlineEntry.spansAll : List OutlineEntry → List FileSpan
  | [] => []
  | e :: rest => e.spans ++ spansAll rest

end

theorem OutlineEntry.spansAll_append (entries more : List OutlineEntry) :
    spansAll (entries ++ more) = spansAll entries ++ spansAll more := by
  induction entries with
  | nil => rfl
  | cons e rest ih => rw [List.cons_append, spansAll, spansAll, ih, List.append_assoc]

/-- The spans of all declarations, however deep. -/
def OutlineReport.spans (r : OutlineReport) : List FileSpan := OutlineEntry.spansAll r.entries

/-- The spans of the fix-its of a diagnostic. -/
def DiagnosticEntry.fixItSpans (e : DiagnosticEntry) : List FileSpan :=
  e.fixIts.filterMap FixItEntry.span

/-- The spans of all fix-its. -/
def DiagnosticsReport.fixItSpans (r : DiagnosticsReport) : List FileSpan :=
  r.entries.flatMap DiagnosticEntry.fixItSpans

/-- All spans are given by surveys among calls. -/
def AllSurveyed (calls : List Exchange) (spans : List FileSpan) : Prop :=
  ∀ s ∈ spans, Surveyed calls s

theorem AllSurveyed.lasting (spans : List FileSpan) : Lasting (AllSurveyed · spans) :=
  fun calls more hcalls h s hs => Surveyed.lasting s calls more hcalls (h s hs)

theorem AllSurveyed.append {spans more : List FileSpan} (h : AllSurveyed calls spans)
    (hmore : AllSurveyed calls more) : AllSurveyed calls (spans ++ more) := by
  intro s hs
  rcases List.mem_append.mp hs with hs | hs
  · exact h s hs
  · exact hmore s hs

theorem AllSurveyed.toList {span? : Option FileSpan} (h : ∀ s ∈ span?, Surveyed calls s) :
    AllSurveyed calls span?.toList :=
  fun s hs => h s (Option.mem_toList.mp hs)

namespace Command

/-- What is made of a unit is ensured of the command, which may also fail. -/
theorem onFile_ensures {α : Type} {post : List Exchange → Except Failure α → Prop}
    (hpost : ∀ a, Lasting (post · a)) (hfailure : ∀ calls failure, post calls (.error failure))
    {body : Index.Pointer → TranslationUnit → Dialogue (Except Failure α)}
    (h : ∀ index unit calls, (body index unit).Ensures calls post) (around : Surroundings)
    (file : Path) (args : List String) : (onFile around file args body).Ensures calls post := by
  unfold onFile
  cases ParseRequest.forFile around.canonical file args around.database with
  | error fault => exact ensures_done (hfailure _ _)
  | ok request =>
    refine Ensures.skip fun calls index _ => Ensures.releasing hpost ?_ _
    refine Ensures.skip fun calls parsed _ => ?_
    cases parsed with
    | error failure => exact ensures_done (hfailure _ _)
    | ok unit => exact Ensures.releasing hpost (h index unit _) _

/-- **Outlines.** The spans of an outline are given by surveys, by induction on the depth. -/
theorem outlineOf_ensures (depth : Nat) (c : Cursor) :
    (outlineOf depth c).Ensures calls fun calls' entries =>
      AllSurveyed calls' (OutlineEntry.spansAll entries) := by
  induction depth generalizing c calls with
  | zero => trivial
  | succ depth ih =>
    refine foldChildren_ensures (fun entries => AllSurveyed.lasting _) ?_ c []
      (List.forall_mem_nil _)
    intro entries child calls hentries
    refine Ensures.skip fun calls₁ kind h₁ => Ensures.skip fun calls₂ listed h₂ => ?_
    have hentries := AllSurveyed.lasting _ _ _ (h₁.trans h₂) hentries
    cases listed with
    | false => exact ensures_done hentries
    | true =>
      refine Ensures.skip fun calls₃ name h₃ => Ensures.skip fun calls₄ extent h₄ => ?_
      refine Ensures.bind (extent.span?_ensures.imp fun calls₅ span h₅ hspan => ?_)
      refine Ensures.skip fun calls₆ isDefinition h₆ => Ensures.skip fun calls₇ comment h₇ => ?_
      have hadded {calls₈ : List Exchange} {children : List OutlineEntry}
          (h₈ : calls₇ <+: calls₈)
          (hchildren : AllSurveyed calls₈ (OutlineEntry.spansAll children)) :
          AllSurveyed calls₈ (OutlineEntry.spansAll
            (entries ++ [.mk name kind.spelling span isDefinition comment children])) := by
        have hspan := AllSurveyed.lasting _ _ _ ((h₆.trans h₇).trans h₈) (AllSurveyed.toList hspan)
        have hentries := AllSurveyed.lasting _ _ _
          (((h₃.trans h₄).trans (h₅.trans h₆)).trans (h₇.trans h₈)) hentries
        rw [OutlineEntry.spansAll_append, OutlineEntry.spansAll, OutlineEntry.spans,
          OutlineEntry.spansAll, List.append_nil]
        exact hentries.append (hspan.append hchildren)
      split
      · refine Ensures.bind ((ih child).imp fun _ children h₈ hchildren => ?_)
        exact ensures_done (hadded h₈ hchildren)
      · exact ensures_done (hadded (List.prefix_refl _) (List.forall_mem_nil _))

theorem fixItEntry_ensures (f : FixIt) :
    (fixItEntry f).Ensures calls fun calls' e => AllSurveyed calls' e.span.toList := by
  refine Ensures.bind (f.range.span?_ensures.imp fun _ _ _ h => ensures_done ?_)
  exact AllSurveyed.toList h

theorem diagnosticEntry_ensures (options : DisplayOptions) (d : Diagnostic) :
    (diagnosticEntry options d).Ensures calls fun calls' e => AllSurveyed calls' e.fixItSpans := by
  refine Ensures.skip fun _ severity _ => Ensures.skip fun _ message _ => ?_
  refine Ensures.skip fun _ place _ => Ensures.skip fun _ location _ => ?_
  refine Ensures.skip fun _ formatted _ => Ensures.skip fun _ category _ => ?_
  refine Ensures.skip fun _ option _ => Ensures.skip fun _ count _ => ?_
  have hlasting : ∀ e : FixItEntry, Lasting fun calls => AllSurveyed calls e.span.toList :=
    fun e => AllSurveyed.lasting e.span.toList
  refine Ensures.bind ((collect_ensures hlasting (fun i calls => ?_) count).imp ?_)
  · refine Ensures.skip fun _ found _ => ?_
    cases found with
    | none => exact ensures_none
    | some f => exact (fixItEntry_ensures f).some
  · intro calls' fixIts _ h
    refine ensures_done ?_
    intro s hs
    obtain ⟨f, hf, hspan⟩ := List.mem_filterMap.mp hs
    exact h f hf s (Option.mem_toList.mpr hspan)

theorem diagnosticsOf_ensures (file : Path) (unit : TranslationUnit) :
    (diagnosticsOf file unit).Ensures calls fun calls' r => AllSurveyed calls' r.fixItSpans := by
  have hlasting : ∀ e : DiagnosticEntry, Lasting fun calls => AllSurveyed calls e.fixItSpans :=
    fun e => AllSurveyed.lasting e.fixItSpans
  refine Ensures.skip fun _ options _ => Ensures.bind (Ensures.skip fun _ count _ => ?_)
  refine (collect_ensures hlasting (fun i calls => ?_) count).imp ?_
  · refine Ensures.skip fun _ found _ => ?_
    cases found with
    | none => exact ensures_none
    | some d =>
      refine Ensures.some (Ensures.releasing hlasting ?_ _)
      exact diagnosticEntry_ensures options d
  · intro calls' entries _ h
    refine ensures_done ?_
    intro s hs
    obtain ⟨e, he, hs⟩ := List.mem_flatMap.mp hs
    exact h e he s hs

end Command

/-! ## One file or two -/

/-- The file and the position that an answer resolves where something is spelled to. -/
def resolution? : Exchange → Option (Option File × Position)
  | ⟨.place (.spelling _), a⟩ => some (a.file, ⟨a.line, a.column⟩)
  | _ => none

/-- All that calls resolve. -/
def resolutions (calls : List Exchange) : List (Option File × Position) :=
  calls.filterMap resolution?

/-- Calls ask for the name of a file, and it is a path. -/
def IsNamed (calls : List Exchange) (f : File) (p : Path) : Prop :=
  ∃ string bytes, ⟨.text (.fileName f), string⟩ ∈ calls ∧ ⟨.stringBytes string, bytes⟩ ∈ calls ∧
    Path.ofString (ForeignString.read bytes) = p

/-- Calls resolve both ends of a span in the file that it names. -/
def InNamedFile (calls : List Exchange) (s : FileSpan) : Prop :=
  ∃ f, IsNamed calls f s.file ∧ (some f, s.span.start) ∈ resolutions calls ∧
    (some f, s.span.stop) ∈ resolutions calls

namespace Survey.Among

variable {v : Survey}

theorem mem_resolutions (h : v.Among calls) :
    (v.first.file, v.span.span.start) ∈ resolutions calls ∧
      (v.last.file, v.span.span.stop) ∈ resolutions calls := by
  have hmade {l : Location} {a : PlaceAnswer} (hx : ⟨.place (.spelling l), a⟩ ∈ v.calls) :
      (a.file, ⟨a.line, a.column⟩) ∈ resolutions calls :=
    List.mem_filterMap.mpr ⟨_, h.made.subset hx, rfl⟩
  exact ⟨hmade (l := v.start) (by simp [Survey.calls]),
    hmade (l := v.stop) (by simp [Survey.calls])⟩

theorem inNamedFile (h : v.Among calls) (hlast : v.last.file = some v.file) :
    InNamedFile calls v.span := by
  obtain ⟨hstart, hstop⟩ := h.mem_resolutions
  rw [h.named] at hstart
  rw [hlast] at hstop
  have hmade {x : Exchange} (hx : x ∈ v.calls) : x ∈ calls := h.made.subset hx
  refine ⟨v.file, ⟨v.string, v.bytes, hmade ?_, hmade ?_, rfl⟩, hstart, hstop⟩
  · simp [Survey.calls]
  · simp [Survey.calls]

end Survey.Among

/-- Every span is given by a survey. So if surveys end in the file they start in, every span lies in
the file it names. -/
structure SpansRead (calls : List Exchange) (spans : List FileSpan) : Prop where
  surveyed : ∀ s ∈ spans, Surveyed calls s
  inNamedFile : (∀ v : Survey, v.Among calls → v.last.file = some v.file) →
    ∀ s ∈ spans, InNamedFile calls s

theorem AllSurveyed.spansRead {spans : List FileSpan} (h : AllSurveyed calls spans) :
    SpansRead calls spans where
  surveyed := h
  inNamedFile hlast s hs := by
    obtain ⟨v, hv, rfl⟩ := h s hs
    exact hv.inNamedFile (hlast v hv)

namespace Command

/-- What is surveyed for a report on a unit is surveyed in the run of a command that reports it. -/
theorem onFile_spansRead {α L : Type} {spans : α → List FileSpan}
    {body : Index.Pointer → TranslationUnit → Dialogue (Except Failure α)}
    (h : ∀ index unit calls, (body index unit).Ensures calls fun calls' result =>
      ∀ r, result = .ok r → AllSurveyed calls' (spans r))
    (around : Surroundings) (file : Path) (args : List String) {library : Library L} {l l' : L}
    {r : α} (hrun : (onFile around file args body).run library l = (some (.ok r), l')) :
    SpansRead ((onFile around file args body).trace library l) (spans r) := by
  have hpost : ∀ result : Except Failure α, Lasting fun calls =>
      ∀ r, result = .ok r → AllSurveyed calls (spans r) :=
    fun _ _ _ hcalls h r hr => AllSurveyed.lasting _ _ _ hcalls (h r hr)
  have hfailure : ∀ calls failure, ∀ r, (.error failure : Except Failure α) = .ok r →
      AllSurveyed calls (spans r) := by
    intro calls failure r hr
    cases hr
  have hensures : (onFile around file args body).Ensures [] _ :=
    onFile_ensures hpost hfailure h around file args
  exact AllSurveyed.spansRead (hensures.of_run hrun r rfl)

/-- **Both ends.** Every span in an outline and every span of a fix-it names the file in which the
start of a stretch was resolved, and has the positions of both its ends. It lies in that file if the
library resolves both ends of a stretch in one file. -/
theorem spans_named_by_start {L : Type} (library : Library L) (l l' : L) (around : Surroundings)
    (file : Path) (args : List String) :
    (∀ depth r, (outline depth around file args).run library l = (some (.ok r), l') →
      SpansRead ((outline depth around file args).trace library l) r.spans) ∧
    (∀ r, (diagnostics around file args).run library l = (some (.ok r), l') →
      SpansRead ((diagnostics around file args).trace library l) r.fixItSpans) := by
  refine ⟨fun depth r hrun => ?_, fun r hrun => ?_⟩
  · refine onFile_spansRead (fun _ unit calls => ?_) around file args hrun
    refine Ensures.skip fun _ cursor _ => ?_
    refine Ensures.bind ((outlineOf_ensures depth cursor).imp fun _ entries _ h => ?_)
    refine ensures_done ?_
    rintro r ⟨⟩
    exact h
  · refine onFile_spansRead (fun _ unit calls => ?_) around file args hrun
    refine Ensures.bind ((diagnosticsOf_ensures file unit).imp fun _ report _ h => ?_)
    refine ensures_done ?_
    rintro r ⟨⟩
    exact h

/-- A function and a fix-it that start in a file and end in the same one or in another. -/
def stretchScript (last : File) : Script where
  files := [{ name := some (Utf8.encode "a.c") }, { name := some (Utf8.encode "b.h"), number := 1 }]
  locations := [{ spelling := ⟨some ⟨0⟩, 1, 1, 0⟩, inMainFile := 1 },
    { spelling := ⟨some last, 7, 2, 0⟩ }]
  cursors := [{ kind := 350, children := [⟨2⟩] },
    { kind := 8, location := ⟨1⟩, extent := some (⟨1⟩, ⟨2⟩) }]
  diagnostics := [{ fixIts := [{ range := some (⟨1⟩, ⟨2⟩) }] }]
  unitDiagnostics := [some ⟨0⟩]

/-- The span that is reported for both. -/
def stretchSpan : FileSpan := ⟨.ofString "a.c", ⟨1, 1⟩, ⟨7, 2⟩⟩

def stretchOutline : Dialogue (Except Failure OutlineReport) :=
  outline 2 ⟨fun _ => none, none, false⟩ (.ofString "a.c") []

def stretchDiagnostics : Dialogue (Except Failure DiagnosticsReport) :=
  diagnostics ⟨fun _ => none, none, false⟩ (.ofString "a.c") []

theorem exists_report {α β L : Type} {part : α → β} {found : β}
    {d : Dialogue (Except Failure α)} {library : Library L} {l : L}
    (h : (d.run library l).1.map (fun result => result.toOption.map part) = some (some found)) :
    ∃ r l', d.run library l = (some (.ok r), l') ∧ part r = found := by
  obtain ⟨result, hresult, hfound⟩ := Option.map_eq_some_iff.mp h
  cases result with
  | error failure => cases hfound
  | ok r =>
    cases hfound
    exact ⟨r, _, Prod.ext hresult rfl, rfl⟩

theorem stretchOutline_spans (last : File) (h : last ∈ [⟨0⟩, ⟨1⟩]) :
    ∃ r l', stretchOutline.run (stretchScript last).library {} = (some (.ok r), l') ∧
      r.spans = [stretchSpan] := by
  refine exists_report ?_
  rcases List.mem_cons.mp h with rfl | h
  · decide +kernel
  · obtain rfl := List.mem_singleton.mp h
    decide +kernel

theorem stretchDiagnostics_spans :
    ∃ r l', stretchDiagnostics.run (stretchScript ⟨1⟩).library {} = (some (.ok r), l') ∧
      r.fixItSpans = [stretchSpan] :=
  exists_report (by decide +kernel)

/-- Where both ends are in one file the span lies in it. -/
theorem stretchSpan_read :
    Surveyed (stretchDiagnostics.trace (stretchScript ⟨1⟩).library {}) stretchSpan ∧
      InNamedFile (stretchOutline.trace (stretchScript ⟨0⟩).library {}) stretchSpan := by
  obtain ⟨r, l', hrun, hspans⟩ := stretchDiagnostics_spans
  obtain ⟨r', l'', hrun', hspans'⟩ := stretchOutline_spans ⟨0⟩ (by decide)
  have hdiagnostics := (spans_named_by_start _ _ _ _ _ _).2 r hrun
  have houtline := (spans_named_by_start _ _ _ _ _ _).1 2 r' hrun'
  rw [hspans] at hdiagnostics
  rw [hspans'] at houtline
  refine ⟨hdiagnostics.surveyed _ List.mem_cons_self, ?_⟩
  refine houtline.inNamedFile (fun v hv => ?_) _ List.mem_cons_self
  have hresolutions : ∀ x ∈ resolutions (stretchOutline.trace (stretchScript ⟨0⟩).library {}),
      x.1 = some ⟨0⟩ := by decide +kernel
  obtain ⟨hstart, hstop⟩ := hv.mem_resolutions
  have hfirst : v.first.file = some ⟨0⟩ := hresolutions _ hstart
  have hlast : v.last.file = some ⟨0⟩ := hresolutions _ hstop
  rw [hlast, ← hfirst, hv.named]

/-- The end of a span may be in another file than the one it names. -/
theorem not_all_spans_in_named_file :
    (¬ ∀ {L : Type} (library : Library L) (l l' : L) (around : Surroundings) (file : Path)
      (args : List String) (depth : Nat) (r : OutlineReport),
      (outline depth around file args).run library l = (some (.ok r), l') →
        ∀ s ∈ r.spans, InNamedFile ((outline depth around file args).trace library l) s) ∧
    ¬ ∀ {L : Type} (library : Library L) (l l' : L) (around : Surroundings) (file : Path)
      (args : List String) (r : DiagnosticsReport),
      (diagnostics around file args).run library l = (some (.ok r), l') →
        ∀ s ∈ r.fixItSpans, InNamedFile ((diagnostics around file args).trace library l) s := by
  have hapart {calls : List Exchange} (h : ∀ x ∈ resolutions calls,
      (x.2 = ⟨1, 1⟩ → x.1 = some ⟨0⟩) ∧ (x.2 = ⟨7, 2⟩ → x.1 = some ⟨1⟩)) :
      ¬ InNamedFile calls stretchSpan := by
    rintro ⟨f, -, hstart, hstop⟩
    have hfirst : some f = some ⟨0⟩ := (h _ hstart).1 rfl
    have hlast : some f = some ⟨1⟩ := (h _ hstop).2 rfl
    rw [hfirst] at hlast
    cases hlast
  constructor
  · intro hall
    obtain ⟨r, l', hrun, hspans⟩ := stretchOutline_spans ⟨1⟩ (by decide)
    have hin := hall _ _ _ _ _ _ 2 r hrun stretchSpan (hspans ▸ List.mem_cons_self)
    exact hapart (by decide +kernel) hin
  · intro hall
    obtain ⟨r, l', hrun, hspans⟩ := stretchDiagnostics_spans
    have hin := hall _ _ _ _ _ _ r hrun stretchSpan (hspans ▸ List.mem_cons_self)
    exact hapart (by decide +kernel) hin

end Command

end ClangLens
