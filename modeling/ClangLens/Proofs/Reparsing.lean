import ClangLens.Proofs.Codes
import ClangLens.Proofs.Custody.Ledger
import ClangLens.Proofs.Opening

/-!
# Parsing again and again

A unit that is parsed again stays the same unit as long as that goes well. The first time it does
not, the unit is released and is not used any more, and if it goes well to the end it is released
there. Either way this happens once, and it is the last call of all.
-/

namespace ClangLens

open Dialogue CodeTable

variable {calls : List Exchange} {logged : Bool} {u : TranslationUnit} {files : List UnsavedFile}

theorem Status.distinct : Distinct Status := by decide

/-! ## One round -/

/-- The calls for a text that only goes into the log. -/
inductive Noted (q : TextQuestion) : Bool → List Exchange → Prop where
  | skipped : Noted q false []
  | noted (s : Option ForeignString) (bytes : Option Bytes) :
      Noted q true (asking q s bytes)

theorem logText_reaches {q : TextQuestion} (h : (logText logged q).Reaches calls ()) :
    Noted q logged calls := by
  cases logged with
  | false =>
    obtain ⟨rfl, -⟩ := h
    exact .skipped
  | true =>
    obtain ⟨text, before, _, rfl, hask, rfl, -⟩ := Reaches.of_bind (d := askText q) h
    obtain ⟨s, bytes, rfl, -⟩ := askText_reaches hask
    rw [List.append_nil]
    exact .noted s bytes

/-- Of what is released for the log nothing is a unit. -/
theorem Noted.unit_not_mem {q : TextQuestion} (h : Noted q logged calls) :
    .unit u ∉ Trace.releases calls := by
  cases h with
  | skipped => exact List.not_mem_nil
  | noted s bytes => simp [asking, copying, Trace.releases, Call.released?]

namespace TranslationUnit

/-- What parsing a unit again comes to. Files that cannot be handed over make no call but that which
releases the unit. A status that is not zero is kept, and the unit is released. -/
inductive Reparsing (logged : Bool) (u : TranslationUnit) (files : List UnsavedFile) :
    List Exchange → Except Failure TranslationUnit → Prop where
  | refused {failure : Failure} (h : UnsavedRecord.ofFiles files = .error failure) :
      Reparsing logged u files [⟨.release (.unit u), ()⟩] (.error failure)
  | failed {unsaved : ForeignArray UnsavedRecord} {options status : UInt32} {code : Coded Status}
      (h : UnsavedRecord.ofFiles files = .ok unsaved) (hstatus : status ≠ 0)
      (hcode : code = .ofCode status) (hkept : code.code = status) :
      Reparsing logged u files
        [⟨.number (.reparseOptions u), options⟩, ⟨.reparse u unsaved options, status⟩,
          ⟨.release (.unit u), ()⟩]
        (.error (.reparse code))
  | reparsed {unsaved : ForeignArray UnsavedRecord} {options : UInt32} {more : List Exchange}
      (h : UnsavedRecord.ofFiles files = .ok unsaved)
      (hmore : Noted (.unitSpelling u) logged more) :
      Reparsing logged u files
        (⟨.number (.reparseOptions u), options⟩ :: ⟨.reparse u unsaved options, 0⟩ :: more) (.ok u)

theorem reparse_reaches {result : Except Failure TranslationUnit}
    (h : (u.reparse logged files).Reaches calls result) :
    Reparsing logged u files calls result := by
  unfold reparse at h
  cases hfiles : UnsavedRecord.ofFiles files with
  | error failure =>
    rw [hfiles] at h
    obtain ⟨_, _, rfl, rfl, rfl⟩ := Reaches.of_ask h
    exact .refused hfiles
  | ok unsaved =>
    rw [hfiles] at h
    obtain ⟨options, _, rfl, hreparse⟩ := Reaches.of_ask h
    obtain ⟨status, _, rfl, hdone⟩ := Reaches.of_ask hreparse
    by_cases hstatus : status = 0
    · subst hstatus
      rw [if_pos (Status.ofCode_eq_success.mpr rfl)] at hdone
      obtain ⟨_, more, _, rfl, hlog, rfl, rfl⟩ := hdone.of_bind
      rw [List.append_nil]
      exact .reparsed hfiles (logText_reaches hlog)
    · rw [if_neg (mt Status.ofCode_eq_success.mp hstatus)] at hdone
      obtain ⟨_, _, rfl, rfl, rfl⟩ := Reaches.of_ask hdone
      exact .failed hfiles hstatus rfl (Coded.code_ofCode Status.distinct status)

theorem reparse_yields (logged : Bool) (u : TranslationUnit) (files : List UnsavedFile) :
    (u.reparse logged files).Yields fun _ => True := by
  unfold reparse
  cases UnsavedRecord.ofFiles files with
  | error failure => exact (yields_ask _).bind fun _ _ => yields_pure trivial
  | ok unsaved =>
    refine (yields_ask _).bind fun options _ => (yields_ask _).bind fun status _ => ?_
    dsimp only
    split
    · exact (logText_yields logged _).bind fun _ _ => yields_pure trivial
    · exact (yields_ask _).bind fun _ _ => yields_pure trivial

/-- A round that goes well leaves the same unit, and does not release it. -/
theorem Reparsing.of_ok {v : TranslationUnit} (h : Reparsing logged u files calls (.ok v)) :
    v = u ∧ .unit u ∉ Trace.releases calls := by
  cases h with
  | reparsed _ hmore =>
    exact ⟨rfl, by simpa [Call.released?] using hmore.unit_not_mem⟩

/-- A round that does not go well ends with the unit being released. -/
theorem Reparsing.of_error {failure : Failure}
    (h : Reparsing logged u files calls (.error failure)) :
    ∃ inner, calls = inner ++ [⟨.release (.unit u), ()⟩] ∧ .unit u ∉ Trace.releases inner := by
  cases h with
  | refused => exact ⟨[], rfl, List.not_mem_nil⟩
  | @failed unsaved options status code =>
    refine ⟨[⟨.number (.reparseOptions u), options⟩, ⟨.reparse u unsaved options, status⟩], rfl, ?_⟩
    simp [Trace.releases, Call.released?]

/-! ## Rounds -/

/-- Parses a unit again and again with other unsaved files, as long as that goes well, and then lets
go of it. -/
def reparseAll (logged : Bool) (u : TranslationUnit) :
    List (List UnsavedFile) → Dialogue (List (Except Failure TranslationUnit))
  | [] => do
    u.release
    return []
  | files :: rounds => do
    match ← u.reparse logged files with
    | .error failure => return [.error failure]
    | .ok v => return .ok v :: (← reparseAll logged v rounds)

/-- What rounds come to. A unit is let go of behind the last one, or the first one that does not go
well is the last. -/
inductive ReparsedAll (logged : Bool) (u : TranslationUnit) :
    List (List UnsavedFile) → List Exchange → List (Except Failure TranslationUnit) → Prop where
  | dropped : ReparsedAll logged u [] [⟨.release (.unit u), ()⟩] []
  | failed {files : List UnsavedFile} {rounds : List (List UnsavedFile)} {calls : List Exchange}
      {failure : Failure} (h : Reparsing logged u files calls (.error failure)) :
      ReparsedAll logged u (files :: rounds) calls [.error failure]
  | reparsed {files : List UnsavedFile} {rounds : List (List UnsavedFile)}
      {calls more : List Exchange} {results : List (Except Failure TranslationUnit)}
      (h : Reparsing logged u files calls (.ok u))
      (hmore : ReparsedAll logged u rounds more results) :
      ReparsedAll logged u (files :: rounds) (calls ++ more) (.ok u :: results)

variable {rounds : List (List UnsavedFile)} {results : List (Except Failure TranslationUnit)}

/-- By induction on the rounds: the unit of a round that goes well is that of the next. -/
theorem reparseAll_reaches (h : (u.reparseAll logged rounds).Reaches calls results) :
    ReparsedAll logged u rounds calls results := by
  induction rounds generalizing calls results with
  | nil =>
    obtain ⟨_, _, rfl, rfl, rfl⟩ := Reaches.of_ask h
    exact .dropped
  | cons files rounds ih =>
    obtain ⟨result, before, after, rfl, hround, hrest⟩ := Reaches.of_bind h
    have hreparsing := reparse_reaches hround
    cases result with
    | error failure =>
      obtain ⟨rfl, rfl⟩ := hrest
      rw [List.append_nil]
      exact .failed hreparsing
    | ok v =>
      obtain ⟨rfl, -⟩ := hreparsing.of_ok
      obtain ⟨others, more, _, rfl, hmore, rfl, rfl⟩ := Reaches.of_bind hrest
      rw [List.append_nil]
      exact .reparsed hreparsing (ih hmore)

theorem reparseAll_yields (logged : Bool) (u : TranslationUnit)
    (rounds : List (List UnsavedFile)) : (u.reparseAll logged rounds).Yields fun _ => True := by
  induction rounds generalizing u with
  | nil => exact (yields_ask _).bind fun _ _ => yields_pure trivial
  | cons files rounds ih =>
    refine (reparse_yields logged u files).bind fun result _ => ?_
    cases result with
    | error failure => exact yields_pure trivial
    | ok v => exact (ih v).bind fun _ _ => yields_pure trivial

/-- Where rounds end: behind the last one, if all go well, or with the first one that does not. -/
inductive Ends (logged : Bool) (u : TranslationUnit) (rounds : List (List UnsavedFile))
    (calls : List Exchange) (results : List (Except Failure TranslationUnit)) : Prop where
  | dropped {done : List Exchange} (hresults : results = rounds.map fun _ => .ok u)
      (hcalls : calls = done ++ [⟨.release (.unit u), ()⟩])
      (hdone : .unit u ∉ Trace.releases done)
  | failed {before after : List (List UnsavedFile)} {files : List UnsavedFile}
      {done last : List Exchange} {failure : Failure} (hrounds : rounds = before ++ files :: after)
      (hresults : results = before.map (fun _ => .ok u) ++ [.error failure])
      (hcalls : calls = done ++ last) (hdone : .unit u ∉ Trace.releases done)
      (hlast : Reparsing logged u files last (.error failure))

/-- A round that goes well comes before all others. -/
theorem Ends.reparsed {more : List Exchange} (h : Reparsing logged u files calls (.ok u))
    (hmore : Ends logged u rounds more results) :
    Ends logged u (files :: rounds) (calls ++ more) (.ok u :: results) := by
  have hcalls := h.of_ok.2
  cases hmore with
  | dropped hresults hmore hdone =>
    subst hresults hmore
    refine .dropped rfl (List.append_assoc calls _ _).symm ?_
    rw [Trace.releases_append, List.mem_append, not_or]
    exact ⟨hcalls, hdone⟩
  | failed hrounds hresults hmore hdone hlast =>
    subst hrounds hresults hmore
    refine .failed (List.cons_append ..).symm rfl (List.append_assoc calls _ _).symm ?_ hlast
    rw [Trace.releases_append, List.mem_append, not_or]
    exact ⟨hcalls, hdone⟩

/-- The unit is released by the last call and by no other. -/
theorem Ends.released_last (h : Ends logged u rounds calls results) :
    ∃ inner, calls = inner ++ [⟨.release (.unit u), ()⟩] ∧ .unit u ∉ Trace.releases inner := by
  cases h with
  | dropped _ hcalls hdone => exact ⟨_, hcalls, hdone⟩
  | @failed _ _ _ done _ _ _ _ hcalls hdone hlast =>
    obtain ⟨inner, rfl, hinner⟩ := hlast.of_error
    refine ⟨done ++ inner, hcalls.trans (List.append_assoc done inner _).symm, ?_⟩
    rw [Trace.releases_append, List.mem_append, not_or]
    exact ⟨hdone, hinner⟩

theorem Ends.same_unit (h : Ends logged u rounds calls results) {v : TranslationUnit}
    (hv : .ok v ∈ results) : v = u := by
  cases h with
  | dropped hresults =>
    subst hresults
    obtain ⟨_, -, heq⟩ := List.mem_map.mp hv
    exact (Except.ok.inj heq).symm
  | failed _ hresults =>
    subst hresults
    obtain hmem | hmem := List.mem_append.mp hv
    · obtain ⟨_, -, heq⟩ := List.mem_map.mp hmem
      exact (Except.ok.inj heq).symm
    · cases List.mem_singleton.mp hmem

theorem ReparsedAll.ends (h : ReparsedAll logged u rounds calls results) :
    Ends logged u rounds calls results := by
  induction h with
  | dropped => exact .dropped rfl (List.nil_append _).symm List.not_mem_nil
  | failed h =>
    exact .failed (List.nil_append _).symm rfl (List.nil_append _).symm List.not_mem_nil h
  | reparsed h _ ih => exact .reparsed h ih

/-- How a unit fares over some rounds. -/
structure Fares (logged : Bool) (u : TranslationUnit) (rounds : List (List UnsavedFile))
    (calls : List Exchange) (results : List (Except Failure TranslationUnit)) : Prop where
  /-- What each round does. -/
  course : ReparsedAll logged u rounds calls results
  same_unit : ∀ v, .ok v ∈ results → v = u
  /-- Nothing is asked of the unit any more once it is released. -/
  released_last : ∃ inner, calls = inner ++ [⟨.release (.unit u), ()⟩] ∧
    .unit u ∉ Trace.releases inner
  released_once : (Trace.releases calls).count (.unit u) = 1
  ends : Ends logged u rounds calls results

theorem ReparsedAll.fares (h : ReparsedAll logged u rounds calls results) :
    Fares logged u rounds calls results where
  course := h
  same_unit _ hv := h.ends.same_unit hv
  released_last := h.ends.released_last
  released_once := by
    obtain ⟨inner, rfl, hinner⟩ := h.ends.released_last
    rw [Trace.releases_append, List.count_append, List.count_eq_zero.mpr hinner, Nat.zero_add]
    exact List.count_singleton_self
  ends := h.ends

end TranslationUnit

/-- **Parsing again.** However often a unit is parsed again and whatever the library answers, it
stays the same unit until it is released, which happens once: when it is let go of, or in the first
round that does not go well. -/
theorem reparsed_unit_released_once {L : Type} (library : Library L) (l : L) (logged : Bool)
    (u : TranslationUnit) (rounds : List (List UnsavedFile)) :
    ∃ results l', (u.reparseAll logged rounds).run library l = (some results, l') ∧
      u.Fares logged rounds ((u.reparseAll logged rounds).trace library l) results := by
  obtain ⟨results, l', hrun, -⟩ :=
    (TranslationUnit.reparseAll_yields logged u rounds).exists_run library l
  exact ⟨results, l', hrun, (TranslationUnit.reparseAll_reaches (reaches_of_run hrun)).fares⟩

/-- The second of three rounds does not go well. -/
example : (((TranslationUnit.mk 1).reparseAll false [[], [], []]).run
    (Script.library { reparseStatuses := [0, 4] }) {}).1 =
      some [.ok ⟨1⟩, .error (.reparse (.named .astReadError))] := by
  decide +kernel

end ClangLens
