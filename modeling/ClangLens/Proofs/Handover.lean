import Mathlib.Tactic.ByContra
import ClangLens.Inspect.TranslationUnit
import ClangLens.Proofs.Building
import ClangLens.Proofs.Running
import ClangLens.Script.Library

/-!
# What can be handed to the library

A text can be handed over if it holds no NUL, a path if it is such a text. Turning a request into
what the library takes decides this for every part, and a request whose checks pass has only parts
that fit, except for its unsaved files, which no check looks at. So a request reaches the library
exactly if every unsaved file it was given fits.
-/

namespace ClangLens

open Request (hasNul)

/-! ## Decisions -/

/-- Says that something cannot be handed over. -/
def Failure.isRefusal : Failure → Bool
  | .interiorNul _ | .nonUtf8Path _ => true
  | _ => false

/-- Gives a value if something fits, and refuses it if not. -/
structure Decides {α : Type} (result : Except Failure α) (fits : Prop) : Prop where
  accepts : fits → ∃ a, result = .ok a
  refuses : ¬fits → ∃ failure, result = .error failure ∧ failure.isRefusal

namespace Decides

variable {α β : Type} {result : Except Failure α} {p q : Prop}

theorem pure (a : α) : Decides (.ok a) True := ⟨fun _ => ⟨a, rfl⟩, fun h => (h trivial).elim⟩

theorem congr (h : Decides result p) (hpq : p ↔ q) : Decides result q := by rwa [← propext hpq]

/-- Only something that does not fit is refused. -/
theorem of_error {failure : Failure} (h : Decides (.error failure : Except Failure α) p) :
    ¬p ∧ failure.isRefusal := by
  have hp : ¬p := by
    intro hp
    obtain ⟨_, hvalue⟩ := h.accepts hp
    cases hvalue
  obtain ⟨_, hfailure, refusal⟩ := h.refuses hp
  cases hfailure
  exact ⟨hp, refusal⟩

/-- What goes wrong first is what is refused. -/
theorem bind {f : α → Except Failure β} (h : Decides result p) (hf : ∀ a, Decides (f a) q) :
    Decides (result >>= f) (p ∧ q) := by
  cases result with
  | ok a =>
    have hp : p := by
      by_contra hp
      obtain ⟨_, hfailure, _⟩ := h.refuses hp
      cases hfailure
    exact (hf a).congr (by simp [hp])
  | error failure =>
    obtain ⟨hp, refusal⟩ := h.of_error
    exact ⟨fun hpq => absurd hpq.1 hp, fun _ => ⟨failure, rfl, refusal⟩⟩

theorem mapM {f : α → Except Failure β} {fits : α → Prop} (h : ∀ a, Decides (f a) (fits a))
    (l : List α) : Decides (l.mapM f) (∀ a ∈ l, fits a) := by
  induction l with
  | nil => exact (pure []).congr (by simp)
  | cons a l ih =>
    rw [List.mapM_cons]
    refine ((h a).bind fun _ => ih.bind fun _ => pure _).congr ?_
    simp

end Decides

/-! ## Texts -/

/-- Only the first byte of a character can be NUL, and only if it is the only one. -/
theorem zero_mem_utf8EncodeChar (c : Char) : 0 ∈ String.utf8EncodeChar c ↔ c = Request.nul := by
  have hbyte (n : Nat) : 0 = UInt8.ofNat n ↔ n % 256 = 0 := by
    rw [eq_comm, ← UInt8.toNat_inj, UInt8.toNat_ofNat']
    rfl
  have hchar : c = Request.nul ↔ c.val.toNat = 0 := by
    rw [Char.ext_iff, ← UInt32.toNat_inj]
    rfl
  have hlt : c.val.toNat < 0x110000 := by
    have := c.valid
    unfold UInt32.isValidChar Nat.isValidChar at this
    omega
  rw [hchar]
  fun_cases String.utf8EncodeChar c <;>
    simp only [List.mem_cons, List.not_mem_nil, or_false, hbyte] <;> omega

/-- The bytes of a text hold a NUL exactly if its characters do. -/
theorem Utf8.zero_mem_encode (s : String) : 0 ∈ Utf8.encode s ↔ hasNul s := by
  simp only [Utf8.encode, hasNul, List.mem_flatMap, zero_mem_utf8EncodeChar, List.contains_iff_mem]
  exact ⟨fun ⟨_, hc, h⟩ => h ▸ hc, fun h => ⟨_, h, rfl⟩⟩

theorem ForeignText.ofString_decides (s : String) :
    Decides (ForeignText.ofString s) (hasNul s = false) := by
  unfold ForeignText.ofString ForeignText.ofBytes
  split
  next h =>
    rw [Utf8.zero_mem_encode] at h
    exact ⟨fun hs => by simp [hs] at h, fun _ => ⟨_, rfl, rfl⟩⟩
  next h =>
    rw [Utf8.zero_mem_encode] at h
    exact ⟨fun _ => ⟨_, rfl⟩, fun hs => by simp_all⟩

/-- A path that is a text without NUL. -/
def Path.Fits (p : Path) : Prop := ∃ s, p.text? = some s ∧ hasNul s = false

instance (p : Path) : Decidable p.Fits :=
  decidable_of_iff (p.text?.any fun s => !hasNul s) (by simp [Path.Fits, Option.any_eq_true])

theorem ForeignText.ofPath_decides (p : Path) : Decides (ForeignText.ofPath p) p.Fits := by
  unfold ForeignText.ofPath
  split
  next s hs => exact (ForeignText.ofString_decides s).congr (by simp [Path.Fits, hs])
  next hs => exact ⟨fun ⟨_, h, _⟩ => by simp [hs] at h, fun _ => ⟨_, rfl, rfl⟩⟩

/-! ## Requests -/

/-- An unsaved file whose name and contents can be handed over. -/
def UnsavedFile.Fits (f : UnsavedFile) : Prop := f.path.Fits ∧ hasNul f.contents = false

instance (f : UnsavedFile) : Decidable f.Fits := inferInstanceAs (Decidable (_ ∧ _))

theorem UnsavedRecord.ofFiles_decides (files : List UnsavedFile) :
    Decides (UnsavedRecord.ofFiles files) (∀ f ∈ files, f.Fits) := by
  have hfile (f : UnsavedFile) : Decides (UnsavedRecord.ofFile f) f.Fits := by
    refine ((ForeignText.ofPath_decides f.path).bind fun _ =>
      (ForeignText.ofString_decides f.contents).bind fun _ => .pure _).congr ?_
    simp [UnsavedFile.Fits]
  exact ((Decides.mapM hfile files).bind fun _ => .pure _).congr (by simp)

theorem ParseCall.ofRequest_decides (r : ParseRequest) :
    Decides (ParseCall.ofRequest r)
      (r.source.Fits ∧ (∀ a ∈ r.args, hasNul a = false) ∧ ∀ f ∈ r.unsaved, f.Fits) := by
  refine ((ForeignText.ofPath_decides r.source).bind fun _ =>
    (Decides.mapM ForeignText.ofString_decides r.args).bind fun _ =>
      (UnsavedRecord.ofFiles_decides r.unsaved).bind fun _ => .pure _).congr ?_
  simp

theorem CompleteCall.ofRequest_decides (r : CompleteRequest) :
    Decides (CompleteCall.ofRequest r) (r.file.Fits ∧ ∀ f ∈ r.unsaved, f.Fits) := by
  refine ((ForeignText.ofPath_decides r.file).bind fun _ =>
    (UnsavedRecord.ofFiles_decides r.unsaved).bind fun _ => .pure _).congr ?_
  simp

/-! ## Checked requests -/

theorem Path.IsUsable.fits {p : Path} (h : p.IsUsable) : p.Fits := by
  obtain ⟨s, hs, -, hnul⟩ := h
  exact ⟨s, hs, hnul⟩

namespace ParseRequest

variable {steps : List Step} {r : ParseRequest}

theorem mem_allFiles {f : UnsavedFile} : f ∈ allFiles steps ↔ .unsaved f ∈ steps := by
  rw [allFiles, List.mem_flatMap]
  constructor
  · rintro ⟨step, hstep, hf⟩
    cases step with
    | unsaved g =>
      obtain rfl : f = g := List.mem_singleton.mp hf
      exact hstep
    | source | args | flags => cases hf
  · intro h
    exact ⟨_, h, List.mem_singleton_self f⟩

/-- A request that is built has a source and arguments that fit, and all unsaved files it was
given. -/
theorem ofSteps_spec (h : ofSteps steps = .ok r) :
    r.source.Fits ∧ (∀ a ∈ r.args, hasNul a = false) ∧ ∀ f, f ∈ r.unsaved ↔ .unsaved f ∈ steps := by
  obtain ⟨p, -, hpath, hargs, rfl⟩ := ofSteps_eq_ok_iff.mp h
  exact ⟨hpath.fits, hargs, fun f => mem_allFiles⟩

end ParseRequest

namespace CompleteRequest

variable {steps : List Step} {r : CompleteRequest}

theorem mem_allFiles {f : UnsavedFile} : f ∈ allFiles steps ↔ .unsaved f ∈ steps := by
  rw [allFiles, List.mem_flatMap]
  constructor
  · rintro ⟨step, hstep, hf⟩
    cases step with
    | unsaved g =>
      obtain rfl : f = g := List.mem_singleton.mp hf
      exact hstep
    | file | position | flags | sorted => cases hf
  · intro h
    exact ⟨_, h, List.mem_singleton_self f⟩

/-- A request that is built has a file that fits, and all unsaved files it was given. -/
theorem ofSteps_spec (h : ofSteps steps = .ok r) :
    r.file.Fits ∧ ∀ f, f ∈ r.unsaved ↔ .unsaved f ∈ steps := by
  obtain ⟨p, line, column, -, -, hpath, -, -, rfl⟩ := ofSteps_eq_ok_iff.mp h
  exact ⟨hpath.fits, fun f => mem_allFiles⟩

end CompleteRequest

/-! ## Reaching the library -/

open Dialogue

section

variable {α L : Type} {library : Library L} {l : L} {d : Dialogue (Except Failure α)} {c : Call}

/-- Anything but a failure to hand something over. -/
def Unrefused (result : Except Failure α) : Prop :=
  ∀ failure, result = .error failure → failure.isRefusal = false

theorem unrefused_ok (a : α) : Unrefused (.ok a) := by
  intro failure h
  cases h

theorem unrefused_error {failure : Failure} (h : failure.isRefusal = false) :
    Unrefused (.error failure : Except Failure α) := by
  intro other heq
  cases heq
  exact h

/-- The library is called first of all, and what comes of it is no refusal. -/
structure Proceeds (library : Library L) (l : L) (c : Call) (d : Dialogue (Except Failure α)) :
    Prop where
  called : ∃ answer rest, d.trace library l = ⟨c, answer⟩ :: rest
  unrefused : ∃ result, (d.run library l).1 = some result ∧ Unrefused result

/-- The request is refused and the library is not called. -/
structure Refused (library : Library L) (l : L) (d : Dialogue (Except Failure α)) : Prop where
  uncalled : d.trace library l = []
  refused : ∃ failure, d.run library l = (some (.error failure), l) ∧ failure.isRefusal

theorem Proceeds.of_ask {f : c.Answer → Dialogue (Except Failure α)}
    (h : ∀ answer, (f answer).Yields Unrefused) : Proceeds library l c (ask c >>= f) where
  called := ⟨_, _, rfl⟩
  unrefused := by
    obtain ⟨result, _, hrun, hresult⟩ := (h (library c l).1).exists_run library (library c l).2
    exact ⟨result, congrArg Prod.fst hrun, hresult⟩

theorem Refused.of_error {failure : Failure} (h : failure.isRefusal) :
    Refused library l (pure (.error failure) : Dialogue (Except Failure α)) :=
  ⟨rfl, failure, rfl, h⟩

/-- Every failure behind the call says that parsing failed. -/
theorem Index.parse_proceeds (i : Index.Pointer) {r : ParseRequest} {p : ParseCall}
    (h : ParseCall.ofRequest r = .ok p) :
    Proceeds library l (.parse i p.source p.args p.unsaved ⟨r.flags.bits⟩) (Index.parse i r) := by
  unfold Index.parse
  rw [h]
  refine Proceeds.of_ask fun answer => ?_
  cases answer.unit with
  | none => exact yields_pure (unrefused_error rfl)
  | some unit =>
    dsimp only
    split
    · exact yields_pure (unrefused_ok unit)
    · exact (yields_ask _).bind fun _ _ => yields_pure (unrefused_error rfl)

theorem Index.parse_refused (i : Index.Pointer) {r : ParseRequest} {failure : Failure}
    (h : ParseCall.ofRequest r = .error failure) (hr : failure.isRefusal) :
    Refused library l (Index.parse i r) := by
  unfold Index.parse
  rw [h]
  exact Refused.of_error hr

theorem Completions.sort_yields (s : Completions) : s.sort.Yields fun _ => True := by
  refine (yields_ask _).bind fun array _ => ?_
  split
  · exact yields_ask _
  · exact yields_pure trivial

/-- The only failure behind the call says that completion failed. -/
theorem TranslationUnit.complete_proceeds (u : TranslationUnit) {r : CompleteRequest}
    {p : CompleteCall} (h : CompleteCall.ofRequest r = .ok p) :
    Proceeds library l (.complete u p.file r.line r.column p.unsaved ⟨r.flags.bits⟩)
      (u.complete r) := by
  unfold TranslationUnit.complete
  rw [h]
  refine Proceeds.of_ask fun answer => ?_
  cases answer with
  | none => exact yields_pure (unrefused_error rfl)
  | some results =>
    dsimp only
    split
    · exact results.sort_yields.bind fun _ _ => yields_pure (unrefused_ok results)
    · exact yields_pure (unrefused_ok results)

theorem TranslationUnit.complete_refused (u : TranslationUnit) {r : CompleteRequest}
    {failure : Failure} (h : CompleteCall.ofRequest r = .error failure) (hr : failure.isRefusal) :
    Refused library l (u.complete r) := by
  unfold TranslationUnit.complete
  rw [h]
  exact Refused.of_error hr

end

/-- **Handing over.** A request that was built reaches the library, and nothing is refused on the
way, if every unsaved file it was given fits; if one does not, it is refused. -/
theorem built_requests_reach_library {L : Type} (library : Library L) (l : L) :
    (∀ steps r i, ParseRequest.ofSteps steps = .ok r →
      ((∀ f, .unsaved f ∈ steps → f.Fits) → ∃ p, ParseCall.ofRequest r = .ok p ∧
        Proceeds library l (.parse i p.source p.args p.unsaved ⟨r.flags.bits⟩) (Index.parse i r)) ∧
      ((∃ f, .unsaved f ∈ steps ∧ ¬f.Fits) → Refused library l (Index.parse i r))) ∧
    (∀ steps r u, CompleteRequest.ofSteps steps = .ok r →
      ((∀ f, .unsaved f ∈ steps → f.Fits) → ∃ p, CompleteCall.ofRequest r = .ok p ∧
        Proceeds library l (.complete u p.file r.line r.column p.unsaved ⟨r.flags.bits⟩)
          (u.complete r)) ∧
      ((∃ f, .unsaved f ∈ steps ∧ ¬f.Fits) → Refused library l (u.complete r))) := by
  constructor
  · intro steps r i h
    obtain ⟨hsource, hargs, hunsaved⟩ := ParseRequest.ofSteps_spec h
    have hdecides := ParseCall.ofRequest_decides r
    refine ⟨fun hfits => ?_, fun ⟨f, hf, hunfit⟩ => ?_⟩
    · obtain ⟨p, hp⟩ := hdecides.accepts
        ⟨hsource, hargs, fun f hf => hfits f ((hunsaved f).mp hf)⟩
      exact ⟨p, hp, Index.parse_proceeds i hp⟩
    · obtain ⟨failure, hfailure, hrefusal⟩ := hdecides.refuses fun hall =>
        hunfit (hall.2.2 f ((hunsaved f).mpr hf))
      exact Index.parse_refused i hfailure hrefusal
  · intro steps r u h
    obtain ⟨hfile, hunsaved⟩ := CompleteRequest.ofSteps_spec h
    have hdecides := CompleteCall.ofRequest_decides r
    refine ⟨fun hfits => ?_, fun ⟨f, hf, hunfit⟩ => ?_⟩
    · obtain ⟨p, hp⟩ := hdecides.accepts ⟨hfile, fun f hf => hfits f ((hunsaved f).mp hf)⟩
      exact ⟨p, hp, u.complete_proceeds hp⟩
    · obtain ⟨failure, hfailure, hrefusal⟩ := hdecides.refuses fun hall =>
        hunfit (hall.2 f ((hunsaved f).mpr hf))
      exact u.complete_refused hfailure hrefusal

/-! ## Unsaved files that no check looks at -/

namespace UnsavedFile

def fit : UnsavedFile := ⟨⟨[97, 46, 104]⟩, "int a;"⟩

/-- A NUL in the name. -/
def unfit : UnsavedFile := ⟨⟨[97, 0, 46, 104]⟩, "int a;"⟩

end UnsavedFile

namespace ParseRequest

def stepsWith (f : UnsavedFile) : List Step := [.source ⟨[97, 46, 99]⟩, .unsaved f]

def withFile (f : UnsavedFile) : ParseRequest := ⟨⟨[97, 46, 99]⟩, [], [f], ParseFlags.keepGoing⟩

/-- Whatever the file. -/
theorem withFile_built (f : UnsavedFile) : ofSteps (stepsWith f) = .ok (withFile f) := rfl

end ParseRequest

open ParseRequest (stepsWith withFile withFile_built)

theorem only_fit_file_reaches_library :
    (∃ p, ParseCall.ofRequest (withFile .fit) = .ok p ∧
      Proceeds (Script.library {}) {} (.parse none p.source p.args p.unsaved ⟨512⟩)
        (Index.parse none (withFile .fit))) ∧
      Refused (Script.library {}) {} (Index.parse none (withFile .unfit)) := by
  obtain ⟨hparse, -⟩ := built_requests_reach_library (Script.library {}) {}
  refine ⟨(hparse _ _ none (withFile_built .fit)).1 fun f hf => ?_,
    (hparse _ _ none (withFile_built .unfit)).2
      ⟨.unfit, by simp [stepsWith], by decide +kernel⟩⟩
  obtain rfl : f = .fit := by simpa [stepsWith] using hf
  decide +kernel

/-- A request that is built need not get past the boundary. -/
theorem not_all_built_requests_unrefused :
    ¬∀ steps r i, ParseRequest.ofSteps steps = .ok r →
      ∃ result, ((Index.parse i r).run (Script.library {}) {}).1 = some result ∧
        Unrefused result := by
  intro h
  obtain ⟨result, hrun, hresult⟩ := h _ _ none (withFile_built .unfit)
  have hrefused : ((Index.parse none (withFile .unfit)).run (Script.library {}) {}).1 =
      some (.error (.interiorNul UnsavedFile.unfit.path.bytes)) := rfl
  rw [hrefused] at hrun
  cases hrun
  exact absurd (hresult _ rfl) (by decide)

end ClangLens
