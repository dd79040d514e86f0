import ClangLens.Inspect.TranslationUnit
import ClangLens.Proofs.Bounds.Series
import ClangLens.Proofs.Gathering

/-!
# Access by index

All accessors that take an index are guarded alike: the series is counted, and the element is asked
for if the index is below the count; otherwise it is missing. Where a series belongs to an element
of another one, counting it is guarded in the same way. A piece of a completion string is asked for
without being counted again, but pieces come from a count.
-/

namespace ClangLens

open Dialogue

variable {α L : Type} {library : Library L} {known : List (Series × UInt32)}
  {counts : Series → UInt32}

/-! ## Counting -/

namespace Series

/-- How many elements there are. -/
def count : Series → Dialogue UInt32
  | unitDiagnostics u => u.numDiagnostics
  | completionDiagnostics s => s.numDiagnostics
  | ranges d => d.numRanges
  | fixIts d => d.numFixIts
  | results s => s.numResults
  | resultFixIts s i => s.numFixIts i
  | chunks p => p.numChunks
  | annotations p => p.numAnnotations
  | children c => c.numChildren
  | arguments c => c.numArgs

/-- The element that a series belongs to, if it belongs to one of another series. -/
def owner? : Series → Option Element
  | resultFixIts s i => some (.results s, i)
  | _ => none

/-- An element, and the one that its series belongs to. -/
def path (s : Series) (i : UInt32) : List Element := (s, i) :: s.owner?.toList

/-- Most series are counted by one question, whatever else there is. -/
def IsPlain (s : Series) (q : NumberQuestion) : Prop :=
  s.count = askNumber q ∧ q.series? = some s ∧ s.owner? = none ∧ (Call.number q).elements = []

/-- The others are read where they lie, belong to an element, or are there for one kind only. -/
theorem isPlain_or (s : Series) :
    (∃ q, s.IsPlain q) ∨ (∃ set, s = .results set) ∨ (∃ set i, s = .resultFixIts set i) ∨
      ∃ c, s = .arguments c := by
  cases s with
  | unitDiagnostics u => exact .inl ⟨_, rfl, rfl, rfl, rfl⟩
  | completionDiagnostics s => exact .inl ⟨_, rfl, rfl, rfl, rfl⟩
  | ranges d => exact .inl ⟨_, rfl, rfl, rfl, rfl⟩
  | fixIts d => exact .inl ⟨_, rfl, rfl, rfl, rfl⟩
  | results s => exact .inr (.inl ⟨s, rfl⟩)
  | resultFixIts s i => exact .inr (.inr (.inl ⟨s, i, rfl⟩))
  | chunks p => exact .inl ⟨_, rfl, rfl, rfl, rfl⟩
  | annotations p => exact .inl ⟨_, rfl, rfl, rfl, rfl⟩
  | children c => exact .inl ⟨_, rfl, rfl, rfl, rfl⟩
  | arguments c => exact .inr (.inr (.inr ⟨c, rfl⟩))

theorem eq_of_mem_path {s : Series} {i : UInt32} {e : Element} (howner : s.owner? = none)
    (he : e ∈ s.path i) : e = (s, i) := by
  unfold path at he
  rw [howner] at he
  exact List.mem_singleton.mp he

theorem number_heeds {s : Series} {q : NumberQuestion} (hq : q.series? = some s)
    (howner : s.owner? = none) (helements : (Call.number q).elements = []) :
    (askNumber q).Heeds known fun known' n => ∀ i < n, ∀ e ∈ s.path i, Covered known' e := by
  refine heeds_call (by simp [helements]) fun n => heeds_done fun i hi e he => ?_
  rw [eq_of_mem_path howner he]
  exact ⟨n, by simp [counted?, hq], hi⟩

/-- Whatever is below a count is covered when the count is known. -/
theorem count_heeds (s : Series) :
    s.count.Heeds known fun known' n => ∀ i < n, ∀ e ∈ s.path i, Covered known' e := by
  rcases s.isPlain_or with
    ⟨q, hcount, hq, howner, helements⟩ | ⟨set, rfl⟩ | ⟨set, i, rfl⟩ | ⟨c, rfl⟩
  · rw [hcount]
    exact number_heeds hq howner helements
  · refine heeds_call (by simp [Call.elements]) fun answer => heeds_done fun i hi e he => ?_
    rw [eq_of_mem_path rfl he]
    exact ⟨answer.count, by simp [counted?], hi⟩
  · refine heeds_call (by simp [Call.elements]) fun answer => ?_
    show Dialogue.Heeds (if i < answer.count then _ else _) _ _
    split
    next h =>
      have hresult :
          Covered ((counted? ⟨.results set, answer⟩).toList ++ known) (.results set, i) :=
        ⟨answer.count, by simp [counted?], h⟩
      refine heeds_call (by simpa [Call.elements] using hresult) fun n => heeds_done ?_
      intro j hj e he
      obtain rfl | rfl : e = (.resultFixIts set i, j) ∨ e = (.results set, i) := by
        simpa [path, owner?] using he
      · exact ⟨n, by simp [counted?, NumberQuestion.series?], hj⟩
      · exact hresult.mono (List.subset_append_right _ _)
    next => exact heeds_done fun j hj => absurd hj UInt32.not_lt_zero
  · refine heeds_call (by simp [Call.elements]) fun code => ?_
    show Dialogue.Heeds (if (Coded.ofCode code : Coded CommentKind) = _ then _ else _) _ _
    split
    · exact number_heeds rfl rfl rfl
    · exact heeds_done fun j hj => absurd hj UInt32.not_lt_zero

/-- Where counts do not change, an index past the count of its series, or of a series whose owner is
not there, is not below what is found; only an owner that is there is asked for. -/
theorem count_past (hsteady : Steady library counts) {s : Series} {i : UInt32} {e : Element}
    (he : e ∈ s.path i) (hpast : counts e.1 ≤ e.2) (l : L) :
    s.count.Fits library l fun calls n => n ≤ i ∧
      ∀ x ∈ calls, ∀ e' ∈ x.1.elements, s.owner? = some e' ∧ e'.1 ≠ e.1 := by
  rcases s.isPlain_or with
    ⟨q, hcount, hq, howner, helements⟩ | ⟨set, rfl⟩ | ⟨set, j, rfl⟩ | ⟨c, rfl⟩
  · rw [eq_of_mem_path howner he] at hpast
    rw [hcount]
    refine fits_call (fits_done ⟨?_, by simp [helements]⟩)
    rw [hsteady.number hq l]
    exact hpast
  · rw [eq_of_mem_path rfl he] at hpast
    refine fits_call (fits_done ⟨?_, by simp [Call.elements]⟩)
    rw [hsteady (.results set) l (.results set) _ rfl]
    exact hpast
  · refine fits_call ?_
    show Fits library _ _ (if j < (library (.results set) l).1.count then _ else _)
    rw [hsteady (.results set) l (.results set) _ rfl]
    by_cases hj : j < counts (.results set)
    · -- the result is there, so it is the fix-it that is not
      have howned : e = (.resultFixIts set j, i) := by
        obtain rfl | rfl : e = (.resultFixIts set j, i) ∨ e = (.results set, j) := by
          simpa [path, owner?] using he
        · rfl
        · exact absurd hj (UInt32.not_lt.mpr hpast)
      rw [howned] at hpast ⊢
      rw [if_pos hj]
      refine fits_call (fits_done ⟨?_, by simp [Call.elements, owner?]⟩)
      rw [hsteady.number (s := .resultFixIts set j) rfl]
      exact hpast
    · rw [if_neg hj]
      exact fits_done ⟨UInt32.zero_le, by simp [Call.elements]⟩
  · rw [eq_of_mem_path rfl he] at hpast
    refine fits_call ?_
    show Fits library _ _ (if (Coded.ofCode _ : Coded CommentKind) = _ then _ else _)
    split
    · refine fits_call (fits_done ⟨?_, by simp [Call.elements]⟩)
      rw [hsteady.number (s := .arguments c) rfl]
      exact hpast
    · exact fits_done ⟨UInt32.zero_le, by simp [Call.elements]⟩

end Series

/-! ## Accessors -/

/-- The accessors that take an index, with the thing they are asked of. -/
inductive Accessor where
  | unitDiagnostic (unit : TranslationUnit)
  | completionDiagnostic (set : Completions)
  | range (diagnostic : Diagnostic)
  | fixIt (diagnostic : Diagnostic)
  | numFixIts (set : Completions)
  | resultFixIt (set : Completions) (result : UInt32)
  | chunkKind (phrase : Phrase)
  | chunkText (phrase : Phrase)
  | chunkPhrase (phrase : Phrase)
  | annotation (phrase : Phrase)
  | child (comment : Comment)
  | argument (comment : Comment)

namespace Accessor

@[reducible] def Answer : Accessor → Type
  | unitDiagnostic _ | completionDiagnostic _ => Option Diagnostic
  | range _ => Option Extent
  | fixIt _ | resultFixIt .. => Option FixIt
  | numFixIts _ => UInt32
  | chunkKind _ => Option (Coded ChunkKind)
  | chunkText _ | annotation _ | argument _ => Option String
  | chunkPhrase _ => Option Phrase
  | child _ => Option Comment

def get : (a : Accessor) → UInt32 → Dialogue a.Answer
  | unitDiagnostic u => u.diagnostic?
  | completionDiagnostic s => s.diagnostic?
  | range d => d.range?
  | fixIt d => d.fixIt?
  | numFixIts s => s.numFixIts
  | resultFixIt s i => s.fixIt? i
  | chunkKind p => p.chunkKind?
  | chunkText p => p.chunkText?
  | chunkPhrase p => p.chunkPhrase?
  | annotation p => p.annotation?
  | child c => c.child?
  | argument c => c.argText?

/-- The answer for an element that is not there. -/
def missing : (a : Accessor) → a.Answer
  | numFixIts _ => (0 : UInt32)
  | unitDiagnostic _ | completionDiagnostic _ | range _ | fixIt _ | resultFixIt .. | chunkKind _
  | chunkText _ | chunkPhrase _ | annotation _ | child _ | argument _ => none

/-- The series an accessor takes its elements from. -/
def series : Accessor → Series
  | unitDiagnostic u => .unitDiagnostics u
  | completionDiagnostic s => .completionDiagnostics s
  | range d => .ranges d
  | fixIt d => .fixIts d
  | numFixIts s => .results s
  | resultFixIt s i => .resultFixIts s i
  | chunkKind p | chunkText p | chunkPhrase p => .chunks p
  | annotation p => .annotations p
  | child c => .children c
  | argument c => .arguments c

/-- What is asked about an element that is there. -/
def element : (a : Accessor) → UInt32 → Dialogue a.Answer
  | unitDiagnostic u, i => ask (.diagnostic (.unit u) i)
  | completionDiagnostic s, i => ask (.diagnostic (.completions s) i)
  | range d, i => do return some (← ask (.extent (.ofDiagnostic d i)))
  | fixIt d, i => do return some (← FixIt.taken (.diagnostic d) i)
  | numFixIts s, i => askNumber (.completionFixIts s i)
  | resultFixIt s i, j => do return some (← FixIt.taken (.completion s i) j)
  | chunkKind p, i => do return some (← p.kindAt i)
  | chunkText p, i => do return some (← p.textAt i)
  | chunkPhrase p, i => ask (.chunkPhrase p i)
  | annotation p, i => do return some (← askText (.annotationText p i))
  | child c, i => do Comment.present? (← ask (.commentChild c i))
  | argument c, i => do return some (← askText (.inlineArgument c i))

/-- All accessors are guarded alike. -/
theorem get_eq (a : Accessor) (i : UInt32) :
    a.get i = do if i < (← a.series.count) then a.element i else return a.missing := by
  cases a <;> rfl

theorem element_heeds (a : Accessor) {i : UInt32} (h : ∀ e ∈ a.series.path i, Covered known e) :
    (a.element i).Heeds known fun _ _ => True := by
  cases a with
  | unitDiagnostic u => exact heeds_call h fun _ => heeds_done trivial
  | completionDiagnostic s => exact heeds_call h fun _ => heeds_done trivial
  | range d => exact heeds_call h fun _ => heeds_done trivial
  | fixIt d => exact heeds_call h fun _ => ((takeString_heeds _).map _).map _
  | numFixIts s => exact heeds_call h fun _ => heeds_done trivial
  | resultFixIt s j => exact heeds_call h fun _ => ((takeString_heeds _).map _).map _
  | chunkKind p => exact heeds_call h fun _ => heeds_done trivial
  | chunkText p => exact heeds_call h fun _ => (takeString_heeds _).map _
  | chunkPhrase p => exact heeds_call h fun _ => heeds_done trivial
  | annotation p => exact heeds_call h fun _ => (takeString_heeds _).map _
  | child c =>
    refine heeds_call h fun child => ?_
    cases child with
    | none => exact heeds_done trivial
    | some child => exact heeds_call (by simp [Call.elements]) fun _ => heeds_done trivial
  | argument c => exact heeds_call h fun _ => (takeString_heeds _).map _

theorem get_heeds (a : Accessor) (i : UInt32) : (a.get i).Heeds known fun _ _ => True := by
  rw [get_eq]
  refine Heeds.bind (a.series.count_heeds.imp fun known' n _ hcovered => ?_)
  split
  next h => exact a.element_heeds (hcovered i h)
  next => exact heeds_done trivial

/-- An element past the count is missing and is not asked for. -/
theorem get_past (hsteady : Steady library counts) {a : Accessor} {i : UInt32} {e : Element}
    (he : e ∈ a.series.path i) (hpast : counts e.1 ≤ e.2) (l : L) :
    (a.get i).Fits library l fun calls answer => answer = a.missing ∧
      ∀ x ∈ calls, ∀ e' ∈ x.1.elements, a.series.owner? = some e' ∧ e'.1 ≠ e.1 := by
  rw [get_eq]
  refine (Series.count_past hsteady he hpast l).bind fun calls n l' ⟨hn, hcalls⟩ => ?_
  rw [if_neg (UInt32.not_lt.mpr hn)]
  refine fits_done ⟨rfl, ?_⟩
  rw [List.append_nil]
  exact hcalls

end Accessor

/-! ## Sequences of accesses -/

/-- What can be asked about a piece of a completion string. -/
inductive ChunkPart where
  | kind | text | nested

/-- Asks about a piece that is held. -/
def ChunkPart.ask (c : Phrase.Chunk) : ChunkPart → Dialogue Unit
  | kind => do let _ ← c.kind
  | text => do let _ ← c.text
  | nested => do let _ ← c.nested?

/-- One step of a caller that holds pieces of completion strings. -/
inductive Access where
  | count (series : Series)
  | get (accessor : Accessor) (index : UInt32)
  /-- The pieces of a completion string are held from then on. -/
  | chunks (phrase : Phrase)
  /-- One of the pieces held is asked about, if there are as many. -/
  | chunk (place : ℕ) (part : ChunkPart)

namespace Access

/-- Performs a step; the pieces held afterwards. -/
def perform (held : List Phrase.Chunk) : Access → Dialogue (List Phrase.Chunk)
  | count s => do
    let _ ← s.count
    return held
  | get a i => do
    let _ ← a.get i
    return held
  | chunks p => do return held ++ (← p.chunks)
  | chunk place part =>
    match held[place]? with
    | none => return held
    | some c => do
      part.ask c
      return held

/-- Performs steps one after another. -/
def performAll (held : List Phrase.Chunk) : List Access → Dialogue (List Phrase.Chunk)
  | [] => return held
  | step :: steps => do performAll (← step.perform held) steps

/-- Pieces whose indices are below a count that is known. -/
def Held (known : List (Series × UInt32)) (held : List Phrase.Chunk) : Prop :=
  ∀ c ∈ held, Covered known (.chunks c.phrase, c.index)

end Access

theorem Dialogue.collectFrom_done (f : UInt32 → α) (k n : ℕ) :
    collectFrom (fun i => .done (some (f i))) (.ofNat k) n =
      .done ((List.range' k n).map fun j => f (.ofNat j)) := by
  induction n generalizing k with
  | zero => rfl
  | succ n ih =>
    rw [collectFrom, ← UInt32.ofNat_one, ← UInt32.ofNat_add, ih (k + 1)]
    rfl

theorem Dialogue.collect_done (n : UInt32) (f : UInt32 → α) :
    collect n (fun i => .done (some (f i))) = .done ((indices n).map f) := by
  unfold collect indices
  rw [List.range_eq_range', List.map_map]
  exact collectFrom_done f 0 n.toNat

/-- Pieces come from a count. -/
theorem Phrase.chunks_heeds (p : Phrase) :
    p.chunks.Heeds known fun known' held => Access.Held known' held := by
  refine heeds_call (by simp [Call.elements]) fun n => ?_
  show Dialogue.Heeds (collect n fun i => .done (some (Chunk.mk p i))) _ _
  rw [collect_done]
  refine heeds_done fun c hc => ?_
  rw [List.mem_map] at hc
  obtain ⟨i, hi, rfl⟩ := hc
  exact ⟨n, by simp [counted?, NumberQuestion.series?], mem_indices.mp hi⟩

theorem ChunkPart.ask_heeds (part : ChunkPart) {c : Phrase.Chunk}
    (hc : Covered known (.chunks c.phrase, c.index)) :
    (part.ask c).Heeds known fun _ _ => True := by
  have hpath : ∀ e ∈ (Series.chunks c.phrase).path c.index, Covered known e := by
    simpa [Series.path, Series.owner?] using hc
  cases part with
  | kind => exact heeds_call hpath fun _ => heeds_done trivial
  | text => exact heeds_call hpath fun _ => (takeString_heeds _).map _
  | nested => exact ((Accessor.chunkPhrase c.phrase).get_heeds c.index).map _

namespace Access

variable {held : List Phrase.Chunk}

theorem Held.mono (h : Held known held) {known' : List (Series × UInt32)}
    (hknown : known ⊆ known') : Held known' held :=
  fun c hc => (h c hc).mono hknown

theorem Held.keep (h : Held known held) {d : Dialogue α} {post : List (Series × UInt32) → α → Prop}
    (hd : d.Heeds known post) :
    (do let _ ← d; return held).Heeds known fun known' held' => Held known' held' :=
  Heeds.bind (hd.imp fun _ _ hknown _ => heeds_done (h.mono hknown))

/-- A step keeps the pieces that are held, and what it adds comes from a count. -/
theorem perform_heeds (step : Access) (h : Held known held) :
    (step.perform held).Heeds known fun known' held' => Held known' held' := by
  cases step with
  | count s => exact h.keep s.count_heeds
  | get a i => exact h.keep (a.get_heeds i)
  | chunks p =>
    refine Heeds.bind (p.chunks_heeds.imp fun known' yielded hknown hyielded => heeds_done ?_)
    exact List.forall_mem_append.mpr ⟨h.mono hknown, hyielded⟩
  | chunk place part =>
    rw [perform]
    split
    · exact heeds_done h
    next c hc => exact h.keep (part.ask_heeds (h c (List.mem_of_getElem? hc)))

theorem performAll_heeds (steps : List Access) (h : Held known held) :
    (performAll held steps).Heeds known fun known' held' => Held known' held' := by
  induction steps generalizing known held with
  | nil => exact heeds_done h
  | cons step steps ih =>
    exact Heeds.bind ((step.perform_heeds h).imp fun known' held' _ h' => ih h')

end Access

end ClangLens
