import Mathlib.Data.List.Forall2
import ClangLens.Proofs.Decoding
import ClangLens.Proofs.Gathering
import ClangLens.Proofs.Handover

/-!
# What arrives at the library

A request is handed over in one call, in which every text, list and number reads as what the request
holds. If a part of the request cannot be handed over, the first such part decides the failure and
the call is not made. First comes the file itself, then the arguments, then of each unsaved file its
name and its contents.
-/

namespace ClangLens

open Dialogue

/-! ## Parts -/

/-- A text or a path that a request holds. -/
inductive Part where
  | text (s : String)
  | path (p : Path)
deriving DecidableEq

namespace Part

def bytes : Part → Bytes
  | text s => Utf8.encode s
  | path p => p.bytes

/-- The text of a part, if it is one. -/
def text? : Part → Option String
  | text s => some s
  | path p => p.text?

/-- A part that can be handed over: a text, and no byte of it ends it early. -/
def Fits (part : Part) : Prop := part.text?.isSome ∧ 0 ∉ part.bytes

instance : DecidablePred Fits := fun _ => inferInstanceAs (Decidable (_ ∧ _))

/-- Why a part cannot be handed over: a path is no text, or the text holds a NUL, of which the first
one counts. -/
inductive Flawed : Part → Failure → Prop where
  | noText {p : Path} (h : p.text? = none) : Flawed (path p) (.nonUtf8Path p)
  | nul {part : Part} {before after : Bytes} (htext : part.text?.isSome)
      (hbytes : part.bytes = before ++ 0 :: after) (hfirst : 0 ∉ before)
      (hposition : Failure.nulPosition part.bytes = before.length) :
      Flawed part (.interiorNul part.bytes)

theorem flawed_of_zero_mem {part : Part} (htext : part.text?.isSome) (h : 0 ∈ part.bytes) :
    part.Flawed (.interiorNul part.bytes) := by
  obtain ⟨before, after, hbytes, hfirst⟩ := List.eq_append_cons_of_mem h
  refine .nul htext hbytes hfirst ?_
  rw [Failure.nulPosition, hbytes, takeWhile_ne hfirst]

theorem bytes_eq_encode {part : Part} {s : String} (h : part.text? = some s) :
    part.bytes = Utf8.encode s := by
  cases part with
  | text t =>
    obtain rfl := Option.some.inj h
    rfl
  | path p => exact Utf8.decode?_eq_some_iff.mp h

end Part

/-- The parts of an unsaved file, in order. -/
def UnsavedFile.parts (f : UnsavedFile) : List Part := [.path f.path, .text f.contents]

/-- The parts of a request, in order. -/
def ParseRequest.parts (r : ParseRequest) : List Part :=
  .path r.source :: (r.args.map .text ++ r.unsaved.flatMap UnsavedFile.parts)

/-- The parts of a request, in order. -/
def CompleteRequest.parts (r : CompleteRequest) : List Part :=
  .path r.file :: r.unsaved.flatMap UnsavedFile.parts

/-! ## Taking up parts -/

/-- Takes up parts in order: if all of them fit, what is made of them carries them; if not, the
failure is that of the first one that does not. -/
structure TakesUp {α : Type} (result : Except Failure α) (parts : List Part) (carries : α → Prop) :
    Prop where
  accepts : (∀ part ∈ parts, part.Fits) → ∃ a, result = .ok a ∧ carries a
  refuses : ∀ part, parts.find? (fun q => ¬q.Fits) = some part →
    ∃ failure, result = .error failure ∧ part.Flawed failure

namespace TakesUp

variable {α β : Type} {result : Except Failure α} {ps qs : List Part} {p : α → Prop} {q : β → Prop}

theorem pure {a : α} (h : p a) : TakesUp (.ok a) [] p :=
  ⟨fun _ => ⟨a, rfl, h⟩, fun _ hpart => nomatch hpart⟩

theorem single {part : Part} (hfit : part.Fits → ∃ a, result = .ok a ∧ p a)
    (hunfit : ¬part.Fits → ∃ failure, result = .error failure ∧ part.Flawed failure) :
    TakesUp result [part] p := by
  refine ⟨fun h => hfit (h part List.mem_cons_self), fun first hfirst => ?_⟩
  obtain rfl : first = part := by simpa using List.mem_of_find?_eq_some hfirst
  exact hunfit (by simpa using List.find?_some hfirst)

theorem imp {p' : α → Prop} (h : TakesUp result ps p) (hp : ∀ a, p a → p' a) :
    TakesUp result ps p' :=
  ⟨fun hfit => (h.accepts hfit).imp fun a ha => ⟨ha.1, hp a ha.2⟩, h.refuses⟩

theorem bind {f : α → Except Failure β} (h : TakesUp result ps p)
    (hf : ∀ a, p a → TakesUp (f a) qs q) : TakesUp (result >>= f) (ps ++ qs) q := by
  constructor
  · intro hfit
    rw [List.forall_mem_append] at hfit
    obtain ⟨a, rfl, ha⟩ := h.accepts hfit.1
    exact (hf a ha).accepts hfit.2
  · intro part hpart
    rw [List.find?_append] at hpart
    cases hps : ps.find? fun q => ¬q.Fits with
    | some first =>
      rw [hps] at hpart
      obtain rfl : first = part := Option.some.inj hpart
      obtain ⟨failure, rfl, hflaw⟩ := h.refuses first hps
      exact ⟨failure, rfl, hflaw⟩
    | none =>
      rw [hps] at hpart
      have hfit : ∀ part ∈ ps, part.Fits := by simpa using List.find?_eq_none.mp hps
      obtain ⟨a, rfl, ha⟩ := h.accepts hfit
      exact (hf a ha).refuses part hpart

theorem map {g : α → β} (h : TakesUp result ps p) (hg : ∀ a, p a → q (g a)) :
    TakesUp (do return g (← result)) ps q := by
  have hbind := h.bind fun a ha => pure (hg a ha)
  rwa [List.append_nil] at hbind

/-- What is made of items one by one, by induction on the items. -/
theorem mapM {f : α → Except Failure β} {parts : α → List Part} {carries : β → α → Prop}
    {l : List α} (h : ∀ a ∈ l, TakesUp (f a) (parts a) (carries · a)) :
    TakesUp (l.mapM f) (l.flatMap parts) (List.Forall₂ carries · l) := by
  induction l with
  | nil => exact pure .nil
  | cons a l ih =>
    rw [List.forall_mem_cons] at h
    rw [List.mapM_cons, List.flatMap_cons]
    exact h.1.bind fun b hb => (ih h.2).map fun bs hbs => .cons hb hbs

end TakesUp

/-! ## Texts -/

/-- The bytes the library reads where a text begins: those in front of the NUL that ends it. -/
def ForeignText.read (t : ForeignText) : Bytes := (t.bytes ++ [0]).takeWhile (· ≠ 0)

theorem ForeignText.read_eq (t : ForeignText) : t.read = t.bytes :=
  takeWhile_ne t.nul_not_mem []

theorem ForeignText.ofBytes_takesUp {part : Part} (htext : part.text?.isSome) :
    TakesUp (ofBytes part.bytes) [part] fun t => t.read = part.bytes := by
  unfold ofBytes
  split
  next hzero =>
    exact .single (fun hfit => absurd hzero hfit.2)
      fun _ => ⟨_, rfl, Part.flawed_of_zero_mem htext hzero⟩
  next hzero =>
    exact .single (fun _ => ⟨_, rfl, read_eq _⟩) fun hunfit => absurd ⟨htext, hzero⟩ hunfit

theorem ForeignText.ofString_takesUp (s : String) :
    TakesUp (ofString s) [.text s] fun t => Utf8.decode? t.read = some s := by
  have hbytes := ofBytes_takesUp (show (Part.text s).text?.isSome from rfl)
  exact hbytes.imp fun t ht => Utf8.decode?_eq_some_iff.mpr ht

theorem ForeignText.ofPath_takesUp (p : Path) :
    TakesUp (ofPath p) [.path p] fun t => Path.mk t.read = p := by
  unfold ofPath
  split
  next s hs =>
    have htext : (Part.path p).text? = some s := hs
    have hbytes := ofBytes_takesUp (Option.isSome_of_eq_some htext)
    rw [ofString, ← Part.bytes_eq_encode htext]
    exact hbytes.imp fun t ht => congrArg Path.mk ht
  next hs =>
    refine .single (fun hfit => ?_) fun _ => ⟨_, rfl, .noText hs⟩
    exact absurd hfit.1 (by simp [Part.text?, hs])

/-! ## Lists -/

/-- The items the library reads: as many as counted, if there is an array. -/
def ForeignArray.read {α : Type} (a : ForeignArray α) : List α :=
  (a.items.getD []).take a.count.toNat

/-- An array that stands for a list of values, item by item. -/
structure ForeignArray.Carries {α β : Type} (rel : α → β → Prop) (a : ForeignArray α)
    (l : List β) : Prop where
  missing_iff : a.items = none ↔ l = []
  count : a.count.toNat = l.length
  items : List.Forall₂ rel a.read l

/-- As many items have no count with a sign. -/
def ForeignArray.bound : ℕ := 2147483648

theorem ForeignArray.ofList_carries {α β : Type} {rel : α → β → Prop} {items : List α} {l : List β}
    (h : List.Forall₂ rel items l) (hbound : l.length < bound) : (ofList items).Carries rel l := by
  have hlength := h.length_eq
  have hcount : (ofList items).count.toNat = items.length := by
    refine UInt32.toNat_ofNat_of_lt' ?_
    rw [hlength]
    exact Nat.lt_trans hbound (by decide)
  have hread : (ofList items).read = items := by
    rw [read, hcount, ofList]
    cases items <;> simp
  refine ⟨?_, hcount.trans hlength, by rwa [hread]⟩
  rw [← List.length_eq_zero_iff, ← hlength, List.length_eq_zero_iff, ofList]
  cases items <;> simp

/-! ## Unsaved files -/

/-- A record that stands for an unsaved file. -/
structure UnsavedRecord.Carries (u : UnsavedRecord) (f : UnsavedFile) : Prop where
  name : Path.mk u.name.read = f.path
  contents : Utf8.decode? u.contents.read = some f.contents
  length : u.length.toNat = (Utf8.encode f.contents).length

/-- Few enough files for a count, with contents that a memory can hold. -/
structure Storable (files : List UnsavedFile) : Prop where
  count : files.length < ForeignArray.bound
  contents : ∀ f ∈ files, (Utf8.encode f.contents).length < UInt64.size

theorem UnsavedRecord.ofFile_takesUp {f : UnsavedFile}
    (hlength : (Utf8.encode f.contents).length < UInt64.size) :
    TakesUp (ofFile f) f.parts (Carries · f) := by
  refine (ForeignText.ofPath_takesUp f.path).bind fun name hname =>
    (ForeignText.ofString_takesUp f.contents).map fun contents hcontents => ?_
  refine ⟨hname, hcontents, ?_⟩
  have hbytes : contents.bytes = Utf8.encode f.contents := by
    rw [← contents.read_eq]
    exact Utf8.decode?_eq_some_iff.mp hcontents
  rw [hbytes]
  exact UInt64.toNat_ofNat_of_lt' hlength

theorem UnsavedRecord.ofFiles_takesUp {files : List UnsavedFile} (h : Storable files) :
    TakesUp (ofFiles files) (files.flatMap UnsavedFile.parts)
      fun a : ForeignArray UnsavedRecord => a.Carries Carries files :=
  (TakesUp.mapM fun f hf => ofFile_takesUp (h.contents f hf)).map fun _ hrecords =>
    ForeignArray.ofList_carries hrecords h.count

/-! ## Requests -/

/-- What is handed over stands for a request. -/
structure ParseCall.Carries (c : ParseCall) (r : ParseRequest) : Prop where
  source : Path.mk c.source.read = r.source
  args : c.args.Carries (fun t s => Utf8.decode? t.read = some s) r.args
  unsaved : c.unsaved.Carries UnsavedRecord.Carries r.unsaved

/-- What is handed over stands for a request. -/
structure CompleteCall.Carries (c : CompleteCall) (r : CompleteRequest) : Prop where
  file : Path.mk c.file.read = r.file
  unsaved : c.unsaved.Carries UnsavedRecord.Carries r.unsaved

theorem ParseCall.ofRequest_takesUp {r : ParseRequest} (hargs : r.args.length < ForeignArray.bound)
    (hunsaved : Storable r.unsaved) : TakesUp (ofRequest r) r.parts (Carries · r) := by
  refine (ForeignText.ofPath_takesUp r.source).bind fun source hsource => ?_
  have hmapM := TakesUp.mapM fun s (_ : s ∈ r.args) => ForeignText.ofString_takesUp s
  rw [← List.map_eq_flatMap] at hmapM
  refine hmapM.bind fun args hread =>
    (UnsavedRecord.ofFiles_takesUp hunsaved).map fun unsaved hunsaved => ?_
  exact ⟨hsource, ForeignArray.ofList_carries hread hargs, hunsaved⟩

theorem CompleteCall.ofRequest_takesUp {r : CompleteRequest} (hunsaved : Storable r.unsaved) :
    TakesUp (ofRequest r) r.parts (Carries · r) :=
  (ForeignText.ofPath_takesUp r.file).bind fun _ hfile =>
    (UnsavedRecord.ofFiles_takesUp hunsaved).map fun _ hunsaved => ⟨hfile, hunsaved⟩

/-! ## Calls -/

/-- Whether a call hands a request over. -/
def Call.handsOver : Call → Bool
  | .parse .. | .complete .. => true
  | _ => false

section

variable {L : Type} {library : Library L} {l : L}

/-- A call is made first, and none behind it hands anything over. -/
def MadeOnce (c : Call) (calls : List Exchange) : Prop :=
  ∃ answer rest, calls = ⟨c, answer⟩ :: rest ∧ ∀ x ∈ rest, x.1.handsOver = false

theorem Index.parse_called (i : Index.Pointer) {r : ParseRequest} {c : ParseCall}
    (h : ParseCall.ofRequest r = .ok c) :
    (Index.parse i r).Fits library l fun calls _ =>
      MadeOnce (.parse i c.source c.args c.unsaved ⟨r.flags.bits⟩) calls := by
  unfold Index.parse
  rw [h]
  refine fits_call ?_
  generalize (library (.parse i c.source c.args c.unsaved ⟨r.flags.bits⟩) l).1 = answer
  obtain ⟨status, unit⟩ := answer
  cases unit with
  | none => exact fits_done ⟨_, [], rfl, List.forall_mem_nil _⟩
  | some unit =>
    rw [done_bind]
    dsimp only
    split
    · exact fits_done ⟨_, [], rfl, List.forall_mem_nil _⟩
    · exact fits_call (fits_done ⟨_, _, rfl, List.forall_mem_singleton.mpr rfl⟩)

theorem Completions.sort_called (s : Completions) :
    s.sort.Fits library l fun calls _ => ∀ x ∈ calls, x.1.handsOver = false := by
  refine fits_call ?_
  rw [done_bind]
  split
  · exact fits_call (fits_done (by simp [Call.handsOver]))
  · exact fits_done (by simp [Call.handsOver])

theorem TranslationUnit.complete_called (u : TranslationUnit) {r : CompleteRequest}
    {c : CompleteCall} (h : CompleteCall.ofRequest r = .ok c) :
    (u.complete r).Fits library l fun calls _ =>
      MadeOnce (.complete u c.file r.line r.column c.unsaved ⟨r.flags.bits⟩) calls := by
  unfold TranslationUnit.complete
  rw [h]
  refine fits_call ?_
  generalize (library (.complete u c.file r.line r.column c.unsaved ⟨r.flags.bits⟩) l).1 = answer
  cases answer with
  | none => exact fits_done ⟨_, [], rfl, List.forall_mem_nil _⟩
  | some results =>
    rw [done_bind]
    dsimp only
    split
    · refine results.sort_called.bind fun calls _ _ hcalls => fits_done ⟨_, _, rfl, ?_⟩
      rwa [List.append_nil]
    · exact fits_done ⟨_, [], rfl, List.forall_mem_nil _⟩

theorem Dialogue.Fits.trace_holds {α : Type} {d : Dialogue α} {p : List Exchange → Prop}
    (h : d.Fits library l fun calls _ => p calls) : p (d.trace library l) := by
  obtain ⟨_, _, _, hp⟩ := h
  exact hp

end

/-! ## Delivery -/

/-- What comes of handing over the parts of a request: if all of them fit, a call that carries it is
made first and only once; if not, the failure is that of the first part that does not fit, and no
call is made. -/
structure Delivers {α L : Type} (library : Library L) (l : L) (d : Dialogue (Except Failure α))
    (parts : List Part) (carries : Call → Prop) : Prop where
  made : (∀ part ∈ parts, part.Fits) → ∃ call, carries call ∧ MadeOnce call (d.trace library l)
  refused : ∀ part, parts.find? (fun q => ¬q.Fits) = some part → ∃ failure, part.Flawed failure ∧
    d.run library l = (some (.error failure), l) ∧ d.trace library l = []

/-- **Delivery.** A request reaches the library in one call that reads as the request, or is refused
for its first part that cannot be handed over, and then the library is not called. -/
theorem requests_delivered {L : Type} (library : Library L) (l : L) :
    (∀ (i : Index.Pointer) (r : ParseRequest), r.args.length < ForeignArray.bound →
      Storable r.unsaved → Delivers library l (Index.parse i r) r.parts fun call =>
        ∃ c : ParseCall, c.Carries r ∧
          call = .parse i c.source c.args c.unsaved ⟨r.flags.bits⟩) ∧
    (∀ (u : TranslationUnit) (r : CompleteRequest), Storable r.unsaved →
      Delivers library l (u.complete r) r.parts fun call =>
        ∃ c : CompleteCall, c.Carries r ∧
          call = .complete u c.file r.line r.column c.unsaved ⟨r.flags.bits⟩) := by
  constructor
  · intro i r hargs hunsaved
    have htaken := ParseCall.ofRequest_takesUp hargs hunsaved
    refine ⟨fun hfit => ?_, fun part hpart => ?_⟩
    · obtain ⟨c, hc, hcarries⟩ := htaken.accepts hfit
      exact ⟨_, ⟨c, hcarries, rfl⟩, (Index.parse_called i hc).trace_holds⟩
    · obtain ⟨failure, hfailure, hflaw⟩ := htaken.refuses part hpart
      refine ⟨failure, hflaw, ?_⟩
      unfold Index.parse
      rw [hfailure]
      exact ⟨rfl, rfl⟩
  · intro u r hunsaved
    have htaken := CompleteCall.ofRequest_takesUp hunsaved
    refine ⟨fun hfit => ?_, fun part hpart => ?_⟩
    · obtain ⟨c, hc, hcarries⟩ := htaken.accepts hfit
      exact ⟨_, ⟨c, hcarries, rfl⟩, (u.complete_called hc).trace_holds⟩
    · obtain ⟨failure, hfailure, hflaw⟩ := htaken.refuses part hpart
      refine ⟨failure, hflaw, ?_⟩
      unfold TranslationUnit.complete
      rw [hfailure]
      exact ⟨rfl, rfl⟩

/-- A request all of which fits: a name that is not ASCII, an empty file and two arguments. -/
def wholeRequest : ParseRequest where
  source := .ofString "ä.c"
  args := ["-O2", "-DX=é"]
  unsaved := [⟨.ofString "a.h", "int ü;"⟩, ⟨.ofString "b.h", ""⟩]
  flags := ParseFlags.keepGoing

/-- A NUL in contents, behind a file that fits and in front of a name that is no text. -/
def brokenRequest : CompleteRequest where
  file := .ofString "a.c"
  line := 3
  column := 7
  flags := CompleteFlags.macros
  unsaved := [⟨.ofString "a.h", "int a;"⟩, ⟨.ofString "b.h", "é\x00\x00"⟩, ⟨⟨[255]⟩, ""⟩]
  sorted := true

theorem wholeRequest_delivered :
    (∃ call, (∃ c : ParseCall, c.Carries wholeRequest ∧
        call = .parse none c.source c.args c.unsaved ⟨512⟩) ∧
      MadeOnce call ((Index.parse none wholeRequest).trace (Script.library {}) {})) ∧
    (brokenRequest.parts.find? fun q => ¬q.Fits) = some (.text "é\x00\x00") ∧
    ∃ failure, (Part.text "é\x00\x00").Flawed failure ∧
      (TranslationUnit.complete ⟨0⟩ brokenRequest).run (Script.library {}) {} =
        (some (.error failure), {}) ∧
      (TranslationUnit.complete ⟨0⟩ brokenRequest).trace (Script.library {}) {} = [] := by
  obtain ⟨hparse, hcomplete⟩ := requests_delivered (Script.library {}) {}
  have hwhole : Storable wholeRequest.unsaved := ⟨by decide, by decide +kernel⟩
  have hbroken : Storable brokenRequest.unsaved := ⟨by decide, by decide +kernel⟩
  have hfirst : (brokenRequest.parts.find? fun q => ¬q.Fits) = some (.text "é\x00\x00") := by
    decide +kernel
  exact ⟨(hparse none wholeRequest (by decide) hwhole).made (by decide +kernel), hfirst,
    (hcomplete ⟨0⟩ brokenRequest hbroken).refused _ hfirst⟩

end ClangLens
