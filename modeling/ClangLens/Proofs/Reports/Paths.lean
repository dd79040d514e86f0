import Mathlib.Data.List.Forall2
import ClangLens.Proofs.Decoding
import ClangLens.Report.Completion
import ClangLens.Report.Diagnostics
import ClangLens.Report.Outline
import ClangLens.Report.References

/-!
# The paths of a report

A report holds paths: its own file and those of all spans in it, however deep. Whether it can be
written is decided by them alone: where all of them are texts there is a JSON value, and where one
is not there is none.
-/

namespace ClangLens

/-- A path whose bytes are a text. -/
def Path.IsText (p : Path) : Prop := p.text?.isSome

instance (p : Path) : Decidable p.IsText := inferInstanceAs (Decidable (_ = true))

theorem Path.isText_iff {p : Path} : p.IsText ↔ ∃ s, p = Path.ofString s := by
  rw [IsText, Option.isSome_iff_exists]
  refine exists_congr fun s => ?_
  rw [text?, Utf8.decode?_eq_some_iff, ofString]
  cases p
  rw [Path.mk.injEq]

/-! ## What is written -/

/-- Comes to something with a property if some paths are texts, and fails if one is not. -/
structure Writes {α : Type} (result : Except Unwritable α) (paths : List Path) (q : α → Prop) :
    Prop where
  ok : (∀ p ∈ paths, p.IsText) → ∃ a, result = .ok a ∧ q a
  error : (∃ p ∈ paths, ¬ p.IsText) → result = .error {}

namespace Writes

variable {α β : Type} {result : Except Unwritable α} {ps qs : List Path} {q : α → Prop}

theorem pure {a : α} (h : q a) : Writes (.ok a) [] q where
  ok _ := ⟨a, rfl, h⟩
  error := by
    rintro ⟨p, hp, -⟩
    cases hp

theorem imp {q' : α → Prop} (h : Writes result ps q) (hq : ∀ a, q a → q' a) :
    Writes result ps q' where
  ok hps := by
    obtain ⟨a, ha, hqa⟩ := h.ok hps
    exact ⟨a, ha, hq a hqa⟩
  error := h.error

theorem bind {f : α → Except Unwritable β} {q' : β → Prop} (h : Writes result ps q)
    (hf : ∀ a, q a → Writes (f a) qs q') : Writes (result >>= f) (ps ++ qs) q' where
  ok hall := by
    rw [List.forall_mem_append] at hall
    obtain ⟨a, rfl, hqa⟩ := h.ok hall.1
    exact (hf a hqa).ok hall.2
  error := by
    rintro ⟨p, hp, hbad⟩
    by_cases hps : ∀ p ∈ ps, p.IsText
    · obtain ⟨a, rfl, hqa⟩ := h.ok hps
      refine (hf a hqa).error ⟨p, ?_, hbad⟩
      exact (List.mem_append.mp hp).resolve_left fun hp => hbad (hps p hp)
    · simp only [not_forall] at hps
      obtain ⟨p, hp, hbad⟩ := hps
      rw [h.error ⟨p, hp, hbad⟩]
      rfl

/-- A result that is only put into something. -/
theorem map {f : α → β} {q' : β → Prop} (h : Writes result ps q) (hf : ∀ a, q a → q' (f a)) :
    Writes (do return f (← result)) ps q' := by
  have hbind : Writes (do return f (← result)) (ps ++ []) q' :=
    h.bind fun a hqa => .pure (hf a hqa)
  rwa [List.append_nil] at hbind

theorem mapM {f : β → Except Unwritable α} {paths : β → List Path} {q : β → α → Prop}
    {bs : List β} (h : ∀ b ∈ bs, Writes (f b) (paths b) (q b)) :
    Writes (bs.mapM f) (bs.flatMap paths) fun as => List.Forall₂ q bs as := by
  induction bs with
  | nil => exact .pure .nil
  | cons b bs ih =>
    rw [List.forall_mem_cons] at h
    rw [List.mapM_cons, List.flatMap_cons]
    exact h.1.bind fun a ha => (ih h.2).map fun as has => .cons ha has

/-- Nothing is written exactly if some path is no text. -/
theorem error_iff (h : Writes result ps q) :
    result = .error {} ↔ ∃ p ∈ ps, ¬ p.IsText := by
  refine ⟨fun herror => ?_, h.error⟩
  by_cases hps : ∀ p ∈ ps, p.IsText
  · obtain ⟨a, rfl, -⟩ := h.ok hps
    cases herror
  · simpa only [not_forall, exists_prop] using hps

/-- What is written has the property. -/
theorem of_ok (h : Writes result ps q) {a : α} (ha : result = .ok a) : q a := by
  by_cases hps : ∀ p ∈ ps, p.IsText
  · obtain ⟨b, hb, hqb⟩ := h.ok hps
    obtain rfl := Except.ok.inj (hb.symm.trans ha)
    exact hqb
  · have herror := h.error (by simpa only [not_forall, exists_prop] using hps)
    exact nomatch herror.symm.trans ha

end Writes

/-- A report is printed as JSON exactly if it has a value, which then is written out. -/
theorem Report.print_ok_iff {α : Type} [Report α] {r : α} {text : String} :
    Report.print true r = .ok text ↔ ∃ j, Report.json r = .ok j ∧ text = j.pretty ++ "\n" := by
  rw [Report.print, if_pos rfl]
  cases hjson : Report.json r with
  | error e => exact iff_of_false (fun h => nomatch h) fun ⟨j, hj, _⟩ => nomatch hj
  | ok j =>
    constructor
    · intro h
      exact ⟨j, rfl, (Except.ok.inj h).symm⟩
    · rintro ⟨j', hj, rfl⟩
      cases hj
      rfl

/-! ## Paths -/

/-- The path of a span that may be missing. -/
def FileSpan.paths (s : Option FileSpan) : List Path := s.toList.map FileSpan.file

def VersionReport.paths (_ : VersionReport) : List Path := []

def FixItEntry.paths (f : FixItEntry) : List Path := FileSpan.paths f.span

def DiagnosticEntry.paths (e : DiagnosticEntry) : List Path :=
  FileSpan.paths e.location ++ e.fixIts.flatMap FixItEntry.paths

def DiagnosticsReport.paths (r : DiagnosticsReport) : List Path :=
  r.file :: r.entries.flatMap DiagnosticEntry.paths

def CompletionReport.paths (r : CompletionReport) : List Path := [r.file]

def ReferenceEntry.paths (e : ReferenceEntry) : List Path := FileSpan.paths e.location

def ReferencesReport.paths (r : ReferencesReport) : List Path :=
  r.file :: r.entries.flatMap ReferenceEntry.paths

mutual

/-- The paths of a declaration and of what is declared in it. -/
def OutlineEntry.paths : OutlineEntry → List Path
  | .mk _ _ span _ _ children => FileSpan.paths span ++ OutlineEntry.pathsAll children

/-- The paths of several declarations. -/
def OutlineEntry.pathsAll : List OutlineEntry → List Path
  | [] => []
  | e :: rest => e.paths ++ OutlineEntry.pathsAll rest

end

def OutlineReport.paths (r : OutlineReport) : List Path :=
  r.file :: OutlineEntry.pathsAll r.entries

end ClangLens
