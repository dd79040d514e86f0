import ClangLens.Foreign.Text
import ClangLens.Proofs.Running

/-!
# Series

Much of what belongs to a thing of the library comes in series: how many elements there are is asked
for by one call, and an element by its index by others. An element that is not there must not be
asked for. So every call for an element has to stand behind one that counted the series as long
enough, and a library whose counts do not change is asked for nothing that is not there.
-/

namespace ClangLens

open Dialogue

/-! ## Elements and counts -/

/-- What comes in a series. -/
inductive Series where
  | unitDiagnostics (unit : TranslationUnit)
  | completionDiagnostics (set : Completions)
  | ranges (diagnostic : Diagnostic)
  | fixIts (diagnostic : Diagnostic)
  | results (set : Completions)
  /-- The fix-its of the result behind an index. -/
  | resultFixIts (set : Completions) (index : UInt32)
  | chunks (phrase : Phrase)
  | annotations (phrase : Phrase)
  | children (comment : Comment)
  | arguments (comment : Comment)
deriving DecidableEq

/-- An element of a series by its index. -/
abbrev Element := Series × UInt32

/-- The elements a call asks for: a fix-it of a result asks for the result too. -/
def Call.elements : Call → List Element
  | .diagnostic (.unit u) i => [(.unitDiagnostics u, i)]
  | .diagnostic (.completions s) i => [(.completionDiagnostics s, i)]
  | .extent (.ofDiagnostic d i) => [(.ranges d, i)]
  | .fixIt (.diagnostic d) i => [(.fixIts d, i)]
  | .fixIt (.completion s i) j => [(.resultFixIts s i, j), (.results s, i)]
  | .number (.completionFixIts s i) => [(.results s, i)]
  | .number (.chunkKind p i) | .text (.chunkText p i) | .chunkPhrase p i => [(.chunks p, i)]
  | .text (.annotationText p i) => [(.annotations p, i)]
  | .commentChild c i => [(.children c, i)]
  | .text (.inlineArgument c i) => [(.arguments c, i)]
  | _ => []

/-- The series a question counts. -/
def NumberQuestion.series? : NumberQuestion → Option Series
  | .unitDiagnostics u => some (.unitDiagnostics u)
  | .completionDiagnostics s => some (.completionDiagnostics s)
  | .diagnosticRanges d => some (.ranges d)
  | .diagnosticFixIts d => some (.fixIts d)
  | .completionFixIts s i => some (.resultFixIts s i)
  | .chunks p => some (.chunks p)
  | .annotations p => some (.annotations p)
  | .commentChildren c => some (.children c)
  | .inlineArguments c => some (.arguments c)
  | _ => none

/-- The series that an answer counts, with the count. -/
def counted? : Exchange → Option (Series × UInt32)
  | ⟨.number q, n⟩ => q.series?.map fun s => (s, n)
  | ⟨.results s, a⟩ => some (.results s, a.count)
  | _ => none

/-- Whether a count is known that an element is below of. -/
def Covered (known : List (Series × UInt32)) (e : Element) : Prop := ∃ n, (e.1, n) ∈ known ∧ e.2 < n

/-- Every element is asked for behind a count that it is below of; some counts are known before. -/
def Guarded : List (Series × UInt32) → List Exchange → Prop
  | _, [] => True
  | known, x :: rest =>
    (∀ e ∈ x.1.elements, Covered known e) ∧ Guarded ((counted? x).toList ++ known) rest

/-- A library whose counts do not change. -/
def Steady {L : Type} (library : Library L) (counts : Series → UInt32) : Prop :=
  ∀ c l s n, counted? ⟨c, (library c l).1⟩ = some (s, n) → n = counts s

variable {α β L : Type} {library : Library L} {known : List (Series × UInt32)}

theorem Steady.number {counts : Series → UInt32} (hsteady : Steady library counts)
    {q : NumberQuestion} {s : Series} (hq : q.series? = some s) (l : L) :
    (library (.number q) l).1 = counts s :=
  hsteady (.number q) l s _ (by simp [counted?, hq])

theorem Covered.mono {e : Element} (h : Covered known e) {known' : List (Series × UInt32)}
    (hknown : known ⊆ known') : Covered known' e := by
  obtain ⟨n, hmem, hlt⟩ := h
  exact ⟨n, hknown hmem, hlt⟩

/-- What is asked for behind counts that are right is there. -/
theorem Guarded.lt_counts {calls : List Exchange} {counts : Series → UInt32}
    (h : Guarded known calls) (hknown : ∀ e ∈ known, e.2 = counts e.1)
    (hcalls : ∀ x ∈ calls, ∀ e, counted? x = some e → e.2 = counts e.1) :
    ∀ x ∈ calls, ∀ e ∈ x.1.elements, e.2 < counts e.1 := by
  induction calls generalizing known with
  | nil => simp
  | cons x rest ih =>
    rw [List.forall_mem_cons] at hcalls ⊢
    obtain ⟨hx, hrest⟩ := h
    refine ⟨fun e he => ?_, ih hrest (fun e he => ?_) hcalls.2⟩
    · obtain ⟨n, hmem, hlt⟩ := hx e he
      rw [← hknown _ hmem]
      exact hlt
    · rcases List.mem_append.mp he with he | he
      · exact hcalls.1 e (Option.mem_toList.mp he)
      · exact hknown e he

/-- The answers in a trace are those of the library. -/
theorem Dialogue.exists_answer (d : Dialogue α) (l : L) {x : Exchange}
    (hx : x ∈ d.trace library l) : ∃ l', x.2 = (library x.1 l').1 := by
  induction d generalizing l with
  | done a => cases hx
  | giveUp => cases hx
  | call c k ih =>
    rcases List.mem_cons.mp hx with rfl | hx
    · exact ⟨l, rfl⟩
    · exact ih _ _ hx

/-! ## Heeding the counts -/

/-- Comes to an end without asking for an element that is not covered by then; `post` holds of the
counts known in the end and the value. -/
def Dialogue.Heeds : Dialogue α → List (Series × UInt32) →
    (List (Series × UInt32) → α → Prop) → Prop
  | .done a, known, post => post known a
  | .giveUp, _, _ => False
  | .call c k, known, post =>
    (∀ e ∈ c.elements, Covered known e) ∧
      ∀ answer, (k answer).Heeds ((counted? ⟨c, answer⟩).toList ++ known) post

namespace Dialogue

variable {post post' : List (Series × UInt32) → α → Prop}

theorem heeds_done {a : α} (h : post known a) : (Dialogue.done a).Heeds known post := h

theorem heeds_call {c : Call} {k : c.Answer → Dialogue α} (hc : ∀ e ∈ c.elements, Covered known e)
    (hk : ∀ answer, (k answer).Heeds ((counted? ⟨c, answer⟩).toList ++ known) post) :
    (Dialogue.call c k).Heeds known post := ⟨hc, hk⟩

/-- Counts that are known stay known. -/
theorem Heeds.imp {d : Dialogue α} (h : d.Heeds known post)
    (hpost : ∀ known' a, known ⊆ known' → post known' a → post' known' a) :
    d.Heeds known post' := by
  induction d generalizing known with
  | done a => exact hpost known a (List.Subset.refl _) h
  | giveUp => exact h
  | call c k ih =>
    refine ⟨h.1, fun answer => ih answer (h.2 answer) fun known' a hsub hp => ?_⟩
    exact hpost known' a (List.Subset.trans (List.subset_append_right _ _) hsub) hp

theorem Heeds.bind {d : Dialogue α} {f : α → Dialogue β}
    {post : List (Series × UInt32) → β → Prop}
    (h : d.Heeds known fun known' a => (f a).Heeds known' post) : (d >>= f).Heeds known post := by
  induction d generalizing known with
  | done a => exact h
  | giveUp => exact h
  | call c k ih => exact ⟨h.1, fun answer => ih answer (h.2 answer)⟩

theorem Heeds.map {d : Dialogue α} (h : d.Heeds known fun _ _ => True) (f : α → β) :
    (do return f (← d)).Heeds known fun _ _ => True :=
  Heeds.bind (h.imp fun _ _ _ _ => heeds_done trivial)

theorem takeString_heeds (s : Option ForeignString) :
    (takeString s).Heeds known fun _ _ => True :=
  heeds_call (by simp [Call.elements]) fun _ =>
    heeds_call (by simp [Call.elements]) fun _ => heeds_done trivial

theorem Heeds.guarded {d : Dialogue α} (h : d.Heeds known post) (library : Library L) (l : L) :
    Guarded known (d.trace library l) := by
  induction d generalizing known l with
  | done a => trivial
  | giveUp => trivial
  | call c k ih => exact ⟨h.1, ih _ (h.2 _) _⟩

theorem Heeds.exists_run {d : Dialogue α} (h : d.Heeds known post) (library : Library L) (l : L) :
    ∃ a l', d.run library l = (some a, l') := by
  induction d generalizing known l with
  | done a => exact ⟨a, l, rfl⟩
  | giveUp => exact h.elim
  | call c k ih => exact ih _ (h.2 _) _

/-- A library whose counts do not change is asked for nothing that is not there. -/
theorem Heeds.lt_counts {d : Dialogue α} (h : d.Heeds [] post) {counts : Series → UInt32}
    (hsteady : Steady library counts) (l : L) :
    ∀ x ∈ d.trace library l, ∀ e ∈ x.1.elements, e.2 < counts e.1 := by
  refine (h.guarded library l).lt_counts (by simp) fun x hx e he => ?_
  obtain ⟨l', hanswer⟩ := d.exists_answer l hx
  obtain ⟨c, answer⟩ := x
  obtain rfl : answer = (library c l').1 := hanswer
  exact hsteady c l' e.1 e.2 he

end Dialogue

end ClangLens
