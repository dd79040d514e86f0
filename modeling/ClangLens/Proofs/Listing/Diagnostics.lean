import ClangLens.Command.Diagnostics
import ClangLens.Proofs.Crossing
import ClangLens.Proofs.Listing.Extents
import ClangLens.Proofs.Listing.References
import ClangLens.Proofs.Opening

/-!
# The diagnostics of a report

A report on diagnostics has an entry for each diagnostic that the unit hands out, and an entry has
each fix-it of its diagnostic, all in the order of their indices. What is missing is left out where
it is missing and nowhere else. There is never more than one diagnostic to be released: each is
released before the next one is asked for.
-/

namespace ClangLens

open Dialogue

variable {α β ι : Type} {calls : List Exchange}

/-! ## Series with a second look -/

/-- Before an index is taken up it is compared with the count once more. -/
inductive Rechecked (q : NumberQuestion) (i : UInt32) (turn : List Exchange → Option α → Prop) :
    List Exchange → Option α → Prop where
  | beyond {n : UInt32} (h : n ≤ i) : Rechecked q i turn [⟨.number q, n⟩] none
  | below {n : UInt32} {calls : List Exchange} {a? : Option α} (h : i < n)
      (hturn : turn calls a?) : Rechecked q i turn (⟨.number q, n⟩ :: calls) a?

/-- Every index below a count has its turn, once and in order. Where the library sticks to its
count, no index is passed over. -/
structure EachInTurn (q : NumberQuestion) (n : UInt32)
    (turn : UInt32 → List Exchange → Option α → Prop) (calls : List Exchange) (kept : List α) :
    Prop where
  rechecked : Gathered (fun i => Rechecked q i (turn i)) (indices n) calls kept
  all : (∀ m, ⟨.number q, m⟩ ∈ calls → m = n) →
    Gathered (fun i these a? => ∃ more, these = ⟨.number q, n⟩ :: more ∧ turn i more a?)
      (indices n) calls kept

theorem eachInTurn_of_gathered {q : NumberQuestion} {n : UInt32}
    {turn : UInt32 → List Exchange → Option α → Prop} {kept : List α}
    (h : Gathered (fun i => Rechecked q i (turn i)) (indices n) calls kept) :
    EachInTurn q n turn calls kept where
  rechecked := h
  all hcount := by
    refine h.imp_of_subset fun i hi these a? hthese hturn => ?_
    cases hturn with
    | beyond hle =>
      have hn := hcount _ (hthese List.mem_cons_self)
      rw [mem_indices, ← hn] at hi
      exact absurd hi (UInt32.not_lt.mpr hle)
    | below _ hturn =>
      have hn := hcount _ (hthese List.mem_cons_self)
      subst hn
      exact ⟨_, rfl, hturn⟩

namespace Dialogue

/-- What is made of an item that is only asked for below a count. -/
theorem atIndex_reaches {q : NumberQuestion} {i : UInt32} {found : Dialogue (Option α)}
    {next : Option α → Dialogue (Option β)} {b? : Option β}
    (h : (atIndex (askNumber q) i found >>= next).Reaches calls b?)
    (hnone : next none = pure none) :
    Rechecked q i (found >>= next).Reaches calls b? := by
  obtain ⟨n, more, rfl, hnext⟩ := Reaches.of_ask h
  change ((if i < n then found else pure none) >>= next).Reaches more b? at hnext
  by_cases hi : i < n
  · rw [if_pos hi] at hnext
    exact .below hi hnext
  · rw [if_neg hi, pure_bind, hnone] at hnext
    obtain ⟨rfl, rfl⟩ := hnext
    exact .beyond (UInt32.not_lt.mp hi)

end Dialogue

theorem Rechecked.imp {q : NumberQuestion} {i : UInt32}
    {turn turn' : List Exchange → Option α → Prop} {a? : Option α}
    (h : Rechecked q i turn calls a?) (himp : ∀ these b?, turn these b? → turn' these b?) :
    Rechecked q i turn' calls a? := by
  cases h with
  | beyond hle => exact .beyond hle
  | below hlt hturn => exact .below hlt (himp _ _ hturn)

/-! ## Places and stretches -/

/-- Only a file is asked for its name. -/
theorem Place.fileName?_reaches {a : PlaceAnswer} {name? : Option String}
    (h : (ofAnswer a).fileName?.Reaches calls name?) :
    (a.file = none ∧ calls = [] ∧ name? = none) ∨
      ∃ file string bytes, a.file = some file ∧ calls = asking (.fileName file) string bytes ∧
        name? = some (ForeignString.read bytes) := by
  unfold fileName? ofAnswer at h
  cases hfile : a.file with
  | none =>
    rw [hfile] at h
    obtain ⟨rfl, rfl⟩ := h
    exact .inl ⟨rfl, rfl, rfl⟩
  | some file =>
    rw [hfile] at h
    obtain ⟨name, _, _, rfl, hname, rfl, rfl⟩ := Reaches.of_bind h
    obtain ⟨string, bytes, rfl, rfl⟩ := askText_reaches hname
    exact .inr ⟨file, string, bytes, rfl, List.append_nil _, rfl⟩

theorem Location.pointSpan?_reaches {location : Location} {span? : Option FileSpan}
    (h : location.pointSpan?.Reaches calls span?) : location.Spans calls span? := by
  obtain ⟨place, _, rfl, hplace⟩ := Reaches.of_ask h
  change ((Place.ofAnswer place).fileName? >>= _).Reaches _ _ at hplace
  obtain ⟨name?, _, _, rfl, hname, hspan⟩ := hplace.of_bind
  obtain ⟨hfile, rfl, rfl⟩ | ⟨file, string, bytes, hfile, rfl, rfl⟩ :=
    Place.fileName?_reaches hname
  · obtain ⟨rfl, rfl⟩ := hspan
    exact .fileless hfile
  · obtain ⟨rfl, rfl⟩ := hspan
    exact .filed hfile

/-- The calls made for the span of a stretch, and the span, unless the stretch is null or its start
has no file. -/
inductive Extent.Spans (e : Extent) : List Exchange → Option FileSpan → Prop where
  | null {answer : UInt32} (h : answer ≠ 0) : Spans e [⟨.number (.extentIsNull e), answer⟩] none
  | fileless {start stop : Location} {first last : PlaceAnswer} (h : first.file = none) :
      Spans e
        [⟨.number (.extentIsNull e), 0⟩, ⟨.location (.startOf e), start⟩,
          ⟨.place (.spelling start), first⟩, ⟨.location (.stopOf e), stop⟩,
          ⟨.place (.spelling stop), last⟩]
        none
  | filed (v : Survey) (hextent : v.extent = e) (hfile : v.first.file = some v.file) :
      Spans e (v.calls ++ [⟨.release (.string v.string), ()⟩]) (some v.span)

theorem Extent.span?_reaches {e : Extent} {span? : Option FileSpan}
    (h : e.span?.Reaches calls span?) : e.Spans calls span? := by
  obtain ⟨null, _, rfl, hspan⟩ := Reaches.of_ask h
  by_cases hnull : null = 0
  · subst hnull
    obtain ⟨start, _, rfl, first, _, rfl, stop, _, rfl, last, _, rfl, hplaces⟩ := hspan
    change ((Place.ofAnswer first).fileName? >>= _).Reaches _ _ at hplaces
    obtain ⟨name?, _, _, rfl, hname, hmade⟩ := hplaces.of_bind
    obtain ⟨hfile, rfl, rfl⟩ | ⟨file, string, bytes, hfile, rfl, rfl⟩ :=
      Place.fileName?_reaches hname
    · obtain ⟨rfl, rfl⟩ := hmade
      exact .fileless hfile
    · obtain ⟨rfl, rfl⟩ := hmade
      exact .filed ⟨e, start, first, stop, last, file, string, bytes⟩ rfl hfile
  · have hanswer : decide (null ≠ 0) = true := decide_eq_true hnull
    change (if decide (null ≠ 0) = true then _ else _ : Dialogue (Option FileSpan)).Reaches _ _
      at hspan
    rw [if_pos hanswer] at hspan
    obtain ⟨rfl, rfl⟩ := hspan
    exact .null hnull

/-! ## Entries -/

/-- A text that the library holds, if there is one and it is not empty. -/
inductive Kept (held : Option Bytes) : Option String → Prop where
  | blank (h : Seen held []) : Kept held none
  | text (h : ¬Seen held []) : Kept held (some (ForeignString.read held))

theorem kept_nonEmpty (held : Option Bytes) : Kept held (nonEmpty (ForeignString.read held)) := by
  unfold nonEmpty
  split
  next h => exact .blank (read_eq_empty_iff.mp h)
  next h => exact .text (mt read_eq_empty_iff.mpr h)

namespace Diagnostic

variable {d : Diagnostic} {options : DisplayOptions}

/-- The calls made for the options of a diagnostic, and the options. Both texts are released; the
one that turns the diagnostic off counts only where there is one that turns it on. -/
inductive Switched (d : Diagnostic) : List Exchange → Option DiagnosticOption → Prop where
  | absent {enable disable : Option ForeignString} {on off : Option Bytes} (h : Seen on []) :
      Switched d
        (⟨.diagnosticOption d, (enable, disable)⟩ :: (copying enable on ++ copying disable off))
        none
  | present {enable disable : Option ForeignString} {on off : Option Bytes}
      {disabling? : Option String} (h : ¬Seen on []) (hoff : Kept off disabling?) :
      Switched d
        (⟨.diagnosticOption d, (enable, disable)⟩ :: (copying enable on ++ copying disable off))
        (some ⟨ForeignString.read on, disabling?⟩)

theorem option?_reaches {option? : Option DiagnosticOption}
    (h : d.option?.Reaches calls option?) : d.Switched calls option? := by
  obtain ⟨⟨enable, disable⟩, _, rfl, on, _, rfl, _, _, rfl, off, _, rfl, _, _, rfl, rfl, rfl⟩ :=
    Reaches.of_ask h
  have hon := kept_nonEmpty on
  generalize nonEmpty (ForeignString.read on) = enabling? at hon
  cases hon with
  | blank hon => exact .absent hon
  | text hon => exact .present hon (kept_nonEmpty off)

/-- The turn of a fix-it, which there always is. -/
inductive FixItTurn (d : Diagnostic) (i : UInt32) : List Exchange → Option FixItEntry → Prop where
  | taken {answer : FixItAnswer} {bytes : Option Bytes} {calls : List Exchange}
      {span? : Option FileSpan} (hspan : answer.range.Spans calls span?) :
      FixItTurn d i
        (⟨.fixIt (.diagnostic d) i, answer⟩ :: (copying answer.replacement bytes ++ calls))
        (some ⟨span?, ForeignString.read bytes⟩)

/-- The fix-its of an entry. Where the library sticks to its count there are as many. -/
structure FixIts (d : Diagnostic) (n : UInt32) (calls : List Exchange)
    (fixIts : List FixItEntry) : Prop where
  each : EachInTurn (.diagnosticFixIts d) n d.FixItTurn calls fixIts
  one_each : (∀ m, ⟨.number (.diagnosticFixIts d), m⟩ ∈ calls → m = n) → fixIts.length = n.toNat

theorem FixIts.of_each {n : UInt32} {fixIts : List FixItEntry}
    (h : EachInTurn (.diagnosticFixIts d) n d.FixItTurn calls fixIts) :
    FixIts d n calls fixIts where
  each := h
  one_each hcount := by
    have hlength := (h.all hcount).length_eq fun i these f? hturn => by
      obtain ⟨_, -, hturn⟩ := hturn
      cases hturn
      rfl
    rw [hlength, indices, List.length_map, List.length_range]

/-- The calls made for an entry, and the entry. -/
inductive Describes (options : DisplayOptions) (d : Diagnostic) :
    List Exchange → DiagnosticEntry → Prop where
  | intro {severity n : UInt32} {spelled printed grouped : Option ForeignString}
      {message formatted group : Option Bytes} {location : Location}
      {located switched fixed : List Exchange} {span? : Option FileSpan} {category? : Option String}
      {option? : Option DiagnosticOption} {fixIts : List FixItEntry}
      (hspan : location.Spans located span?) (hcategory : Kept group category?)
      (hoption : d.Switched switched option?) (hfixIts : d.FixIts n fixed fixIts) :
      Describes options d
        (⟨.number (.severity d), severity⟩ :: (asking (.diagnosticSpelling d) spelled message ++
          ⟨.location (.ofDiagnostic d), location⟩ :: (located ++
            (asking (.diagnosticFormat d ⟨options.bits⟩) printed formatted ++
              (asking (.diagnosticCategory d) grouped group ++ (switched ++
                ⟨.number (.diagnosticFixIts d), n⟩ :: fixed))))))
        ⟨.ofCode severity, ForeignString.read message, span?, ForeignString.read formatted,
          category?, option?, fixIts⟩

end Diagnostic

open Diagnostic (Describes)

variable {d : Diagnostic} {options : DisplayOptions}

theorem Command.diagnosticEntry_reaches {e : DiagnosticEntry}
    (h : (diagnosticEntry options d).Reaches calls e) : Describes options d calls e := by
  obtain ⟨severity, _, rfl, spelled, _, rfl, message, _, rfl, _, _, rfl, location, _, rfl,
    hlocated⟩ := Reaches.of_ask h
  change (location.pointSpan? >>= _).Reaches _ _ at hlocated
  obtain ⟨span?, located, _, rfl, hspan, printed, _, rfl, formatted, _, rfl, _, _, rfl, grouped, _,
    rfl, group, _, rfl, _, _, rfl, hswitched⟩ := hlocated.of_bind
  change (d.option? >>= _).Reaches _ _ at hswitched
  obtain ⟨option?, switched, _, rfl, hoption, n, _, rfl, hcounted⟩ := hswitched.of_bind
  change (collect n _ >>= _).Reaches _ _ at hcounted
  obtain ⟨fixIts, fixed, _, rfl, hfixIts, rfl, rfl⟩ := hcounted.of_bind
  rw [List.append_nil]
  refine .intro (Location.pointSpan?_reaches hspan) (kept_nonEmpty group)
    (Diagnostic.option?_reaches hoption)
    (.of_each (eachInTurn_of_gathered (collect_reaches (fun i these f? hturn => ?_) hfixIts)))
  refine (atIndex_reaches hturn rfl).imp fun these g? hturn => ?_
  obtain ⟨answer, _, rfl, bytes, _, rfl, _, _, rfl, hentry⟩ := Reaches.of_ask hturn
  change (fixItEntry ⟨answer.range, ForeignString.read bytes⟩ >>= _).Reaches _ _ at hentry
  obtain ⟨f, _, _, rfl, hmade, rfl, rfl⟩ := hentry.of_bind
  obtain ⟨span?, asked, _, rfl, hspan, rfl, rfl⟩ := Reaches.of_bind hmade
  rw [List.append_nil, List.append_nil]
  exact .taken (Extent.span?_reaches hspan)

/-! ## Diagnostics -/

/-- The turn of a diagnostic: it is left out if there is none, else described and released. -/
inductive TranslationUnit.DiagnosticTurn (u : TranslationUnit) (options : DisplayOptions)
    (i : UInt32) : List Exchange → Option DiagnosticEntry → Prop where
  | missing : DiagnosticTurn u options i [⟨.diagnostic (.unit u) i, none⟩] none
  | described {d : Diagnostic} {calls : List Exchange} {e : DiagnosticEntry}
      (h : Describes options d calls e) :
      DiagnosticTurn u options i
        (⟨.diagnostic (.unit u) i, some d⟩ :: (calls ++ [⟨.release (.diagnostic d), ()⟩])) (some e)

theorem Command.diagnosticsOf_reaches {file : Path} {u : TranslationUnit}
    {report : DiagnosticsReport} (h : (diagnosticsOf file u).Reaches calls report) :
    ∃ options n asked,
      calls = ⟨.number .defaultDisplayOptions, options⟩ :: ⟨.number (.unitDiagnostics u), n⟩ ::
        asked ∧
      report.file = file ∧
      EachInTurn (.unitDiagnostics u) n (u.DiagnosticTurn ⟨options.toBitVec⟩) asked
        report.entries := by
  obtain ⟨options, _, rfl, hmapped⟩ := Reaches.of_ask h
  change (u.mapDiagnostics (diagnosticEntry ⟨options.toBitVec⟩) >>= _).Reaches _ _ at hmapped
  obtain ⟨entries, _, _, rfl, hentries, rfl, rfl⟩ := hmapped.of_bind
  obtain ⟨n, asked, rfl, hcollected⟩ := Reaches.of_ask hentries
  rw [List.append_nil]
  refine ⟨options, n, asked, rfl, rfl, eachInTurn_of_gathered
    (collect_reaches (fun i these e? hturn => ?_) hcollected)⟩
  refine (atIndex_reaches hturn rfl).imp fun these e? hturn => ?_
  obtain ⟨d?, more, rfl, hused⟩ := Reaches.of_ask hturn
  cases d? with
  | none =>
    obtain ⟨rfl, rfl⟩ := hused
    exact .missing
  | some d =>
    obtain ⟨e, _, _, rfl, hreleased, rfl, rfl⟩ := Reaches.of_bind hused
    obtain ⟨asked, rfl, hasked⟩ := hreleased.of_releasing
    rw [List.append_nil]
    exact .described (diagnosticEntry_reaches hasked)

/-! ## One at a time -/

/-- Whether a call hands out a diagnostic or releases one. -/
def Call.movesDiagnostic : Call → Bool
  | .diagnostic .. | .release (.diagnostic _) => true
  | _ => false

/-- Calls between which at most one diagnostic is to be released, from the one at the start to the
one at the end. One is only asked for while there is none. -/
inductive OneAtATime : Option Diagnostic → List Exchange → Option Diagnostic → Prop where
  | done {held : Option Diagnostic} : OneAtATime held [] held
  | asked {owner : DiagnosticOwner} {i : UInt32} {d? last : Option Diagnostic}
      {calls : List Exchange} (h : OneAtATime d? calls last) :
      OneAtATime none (⟨.diagnostic owner i, d?⟩ :: calls) last
  | released {d : Diagnostic} {last : Option Diagnostic} {calls : List Exchange}
      (h : OneAtATime none calls last) :
      OneAtATime (some d) (⟨.release (.diagnostic d), ()⟩ :: calls) last
  | other {held last : Option Diagnostic} {x : Exchange} {calls : List Exchange}
      (hx : x.1.movesDiagnostic = false) (h : OneAtATime held calls last) :
      OneAtATime held (x :: calls) last

namespace OneAtATime

variable {held next last : Option Diagnostic} {more : List Exchange}

theorem append (h : OneAtATime held calls next) (hmore : OneAtATime next more last) :
    OneAtATime held (calls ++ more) last := by
  induction h with
  | done => exact hmore
  | asked _ ih => exact .asked (ih hmore)
  | released _ ih => exact .released (ih hmore)
  | other hx _ ih => exact .other hx (ih hmore)

theorem of_forall (h : ∀ x ∈ calls, x.1.movesDiagnostic = false) :
    OneAtATime held calls held := by
  induction calls with
  | nil => exact .done
  | cons x calls ih =>
    rw [List.forall_mem_cons] at h
    exact .other h.1 (ih h.2)

theorem of_gathered {met : ι → List Exchange → Option α → Prop} {items : List ι} {kept : List α}
    (h : Gathered met items calls kept)
    (hmet : ∀ i these a?, met i these a? → OneAtATime none these none) :
    OneAtATime none calls none := by
  induction h with
  | nil => exact .done
  | cons hfirst _ ih => exact (hmet _ _ _ hfirst).append ih

end OneAtATime

theorem Location.Spans.still {location : Location} {span? : Option FileSpan}
    (h : location.Spans calls span?) : ∀ x ∈ calls, x.1.movesDiagnostic = false := by
  cases h <;> simp [Call.movesDiagnostic]

theorem Extent.Spans.still {e : Extent} {span? : Option FileSpan} (h : e.Spans calls span?) :
    ∀ x ∈ calls, x.1.movesDiagnostic = false := by
  cases h <;> simp [Survey.calls, Call.movesDiagnostic]

theorem Diagnostic.Switched.still {option? : Option DiagnosticOption}
    (h : d.Switched calls option?) : ∀ x ∈ calls, x.1.movesDiagnostic = false := by
  cases h <;> simp [copying, Call.movesDiagnostic]

theorem Diagnostic.FixIts.still {n : UInt32} {fixIts : List FixItEntry}
    (h : d.FixIts n calls fixIts) : ∀ x ∈ calls, x.1.movesDiagnostic = false := by
  refine h.each.rechecked.forall_mem fun i these f? hturn => ?_
  cases hturn with
  | beyond => simp [Call.movesDiagnostic]
  | below _ hturn =>
    cases hturn with
    | taken hspan => simpa [copying, Call.movesDiagnostic] using hspan.still

theorem Diagnostic.Describes.still {e : DiagnosticEntry} (h : Describes options d calls e) :
    ∀ x ∈ calls, x.1.movesDiagnostic = false := by
  cases h with
  | intro hspan _ hoption hfixIts =>
    simp only [asking, copying, List.cons_append, List.nil_append, List.forall_mem_cons,
      List.forall_mem_append]
    exact ⟨rfl, rfl, rfl, rfl, rfl, hspan.still, rfl, rfl, rfl, rfl, rfl, rfl, hoption.still, rfl,
      hfixIts.still⟩

theorem TranslationUnit.DiagnosticTurn.oneAtATime {u : TranslationUnit} {i : UInt32}
    {e? : Option DiagnosticEntry} (h : u.DiagnosticTurn options i calls e?) :
    OneAtATime none calls none := by
  cases h with
  | missing => exact .asked .done
  | described h => exact .asked ((OneAtATime.of_forall h.still).append (.released .done))

theorem EachInTurn.oneAtATime {u : TranslationUnit} {n : UInt32} {entries : List DiagnosticEntry}
    (h : EachInTurn (.unitDiagnostics u) n (u.DiagnosticTurn options) calls entries) :
    OneAtATime none calls none := by
  refine .of_gathered h.rechecked fun i these e? hturn => ?_
  cases hturn with
  | beyond => exact .other rfl .done
  | below _ hturn => exact .other rfl hturn.oneAtATime

/-! ## Reports -/

namespace Command

variable {around : Surroundings} {file : Path} {args : List String}

theorem Opened.still {index : Index.Pointer} {u : TranslationUnit} {before after : List Exchange}
    (h : Opened around file args index u before after) :
    ∀ x ∈ before ++ after, x.1.movesDiagnostic = false := by
  cases h
  simp [Call.movesDiagnostic]

/-- **Diagnostics.** A report has an entry for each diagnostic that there is at an index below the
count, in the order of the indices, with what the library says of it and each of its fix-its; and
every diagnostic is released before the next one is asked for. -/
theorem diagnostics_listed {L : Type} {library : Library L} {l l' : L}
    {report : DiagnosticsReport}
    (h : (diagnostics around file args).run library l = (some (.ok report), l')) :
    ∃ index u options n before asked after,
      (diagnostics around file args).trace library l =
        before ++ (⟨.number .defaultDisplayOptions, options⟩ ::
          ⟨.number (.unitDiagnostics u), n⟩ :: asked) ++ after ∧
      Opened around file args index u before after ∧
      report.file = file ∧
      EachInTurn (.unitDiagnostics u) n (u.DiagnosticTurn ⟨options.toBitVec⟩) asked
        report.entries ∧
      OneAtATime none ((diagnostics around file args).trace library l) none := by
  obtain ⟨index, u, before, inner, after, htrace, hopened, hbody⟩ :=
    onFile_reaches (reaches_of_run h)
  obtain ⟨report, _, _, rfl, hreport, rfl, ⟨⟩⟩ := hbody.of_bind
  obtain ⟨options, n, asked, rfl, hfile, hentries⟩ := diagnosticsOf_reaches hreport
  rw [List.append_nil] at htrace
  refine ⟨index, u, options, n, before, asked, after, htrace, hopened, hfile, hentries, ?_⟩
  obtain ⟨hbefore, hafter⟩ := List.forall_mem_append.mp hopened.still
  have hasked : OneAtATime none asked none := hentries.oneAtATime
  rw [show (diagnostics around file args).trace library l = _ from htrace]
  exact ((OneAtATime.of_forall hbefore).append (.other rfl (.other rfl hasked))).append
    (.of_forall hafter)

/-- A unit with no diagnostic between two. The first can only be turned off; of its fix-its one has
no place, one starts in no file and one has a span. The other can only be turned on and has no place
itself. -/
def mixedScript : Script where
  files := [{ name := some (Utf8.encode "a.c") }]
  locations := [{ spelling := ⟨some ⟨0⟩, 3, 5, 0⟩ }, { spelling := ⟨some ⟨0⟩, 4, 1, 0⟩ }]
  diagnostics := [
    { severity := 2, spelling := some (Utf8.encode "unused"), location := ⟨1⟩,
      disable := some (Utf8.encode "-Wno-unused"),
      fixIts := [{ replacement := some (Utf8.encode "x") }, { range := some (⟨0⟩, ⟨1⟩) },
        { range := some (⟨1⟩, ⟨2⟩) }] },
    { severity := 3, enable := some (Utf8.encode "-Wextra"), disable := some [] }]
  unitDiagnostics := [some ⟨0⟩, none, some ⟨1⟩]

def mixedEntries : List DiagnosticEntry :=
  [{ severity := .named .warning, message := "unused",
     location := some (.point (.ofString "a.c") ⟨3, 5⟩), formatted := "", category := none,
     option := none,
     fixIts := [⟨none, "x"⟩, ⟨none, ""⟩, ⟨some ⟨.ofString "a.c", ⟨3, 5⟩, ⟨4, 1⟩⟩, ""⟩] },
   { severity := .named .error, message := "", location := none, formatted := "",
     category := none, option := some ⟨"-Wextra", none⟩, fixIts := [] }]

theorem mixedEntries_listed : ∃ u options n asked,
    EachInTurn (.unitDiagnostics u) n (u.DiagnosticTurn options) asked mixedEntries ∧
      asked <:+: stretchDiagnostics.trace mixedScript.library {} := by
  obtain ⟨report, l', hrun, hreported⟩ : ∃ r l',
      stretchDiagnostics.run mixedScript.library {} = (some (.ok r), l') ∧
        r.entries = mixedEntries := exists_report (by decide +kernel)
  obtain ⟨_, u, options, n, before, asked, after, htrace, -, -, hentries, -⟩ :=
    diagnostics_listed hrun
  rw [hreported] at hentries
  refine ⟨u, ⟨options.toBitVec⟩, n, asked, hentries, ?_⟩
  exact ⟨before ++ [⟨.number .defaultDisplayOptions, options⟩, ⟨.number (.unitDiagnostics u), n⟩],
    after, (htrace.trans (by simp)).symm⟩

end Command

end ClangLens
