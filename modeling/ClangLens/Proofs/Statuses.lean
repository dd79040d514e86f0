import ClangLens.Proofs.Handover
import ClangLens.Proofs.Reparsing

/-!
# Statuses

Parsing, parsing again, saving and indexing are answered with a status of 32 bits. An operation goes
well exactly if the status is zero and there is what it is to give. Any other status is found in the
failure as it was, and no two of them make the same sentence.
-/

namespace ClangLens

open Dialogue Coded

variable {α β L : Type} [CodeTable β] [DecidableEq β] {library : Library L} {l : L}
  {calls : List Exchange}

theorem Status.faithful : Faithful Status :=
  Coded.faithful (fun value => by cases value <;> rfl) Status.distinct

theorem SaveStatus.faithful : Faithful SaveStatus :=
  Coded.faithful (fun value => by cases value <;> rfl) (by decide)

/-! ## What is told of a status -/

/-- A failure made for a status says which one it was. -/
structure Recorded (failure : Coded β → Failure) (status : UInt32) : Prop where
  /-- The status can be had back from the code. -/
  kept : (Coded.ofCode status : Coded β).code = status
  /-- Another status makes another sentence. -/
  told_apart : ∀ other, other ≠ status →
    (failure (.ofCode other)).message ≠ (failure (.ofCode status)).message

/-- Where the sentence ends with the code. -/
theorem recorded_of_message {failure : Coded β → Failure} (before : String)
    (hmessage : ∀ code, (failure code).message = before ++ code.spelling)
    (hfaithful : Faithful β) (status : UInt32) : Recorded failure status where
  kept := hfaithful.code_ofCode status
  told_apart other hother heq := by
    rw [hmessage, hmessage] at heq
    exact hother (hfaithful.spelling_ofCode ((String.append_right_inj before).mp heq))

theorem parse_recorded (p : Path) : ∀ status, Recorded (Failure.parse p) status :=
  recorded_of_message ("Failed to parse " ++ p.text ++ ": ") (fun _ => rfl) Status.faithful

theorem reparse_recorded : ∀ status, Recorded Failure.reparse status :=
  recorded_of_message "Failed to reparse translation unit: " (fun _ => rfl) Status.faithful

theorem save_recorded (p : Path) : ∀ status, Recorded (Failure.save p) status :=
  recorded_of_message ("Failed to save translation unit to " ++ p.text ++ ": ") (fun _ => rfl)
    SaveStatus.faithful

theorem indexing_recorded : ∀ status, Recorded Failure.indexing status :=
  recorded_of_message "Indexing failed: " (fun _ => rfl) Status.faithful

/-- What comes of an operation that is answered with a status, where `failure` makes its failures
and `given?` is what it is to give, if there is that. -/
structure Told (failure : Coded β → Failure) (status : UInt32) (given? : Option α)
    (result : Except Failure α) : Prop extends Recorded failure status where
  ok_iff : ∀ a, result = .ok a ↔ status = 0 ∧ given? = some a
  failed : status ≠ 0 → result = .error (failure (.ofCode status))

namespace Told

variable {failure : Coded β → Failure} {status : UInt32}

theorem of_ok (h : Recorded failure 0) (a : α) : Told failure 0 (some a) (.ok a) where
  toRecorded := h
  ok_iff b := by
    constructor
    · rintro ⟨⟩
      exact ⟨rfl, rfl⟩
    · rintro ⟨-, ⟨⟩⟩
      rfl
  failed hzero := absurd rfl hzero

/-- All went well, but there is nothing to give. -/
theorem of_missing (h : Recorded failure 0) (code : Coded β) :
    Told failure 0 (none : Option α) (.error (failure code)) where
  toRecorded := h
  ok_iff a := by
    constructor
    · rintro ⟨⟩
    · rintro ⟨-, ⟨⟩⟩
  failed hzero := absurd rfl hzero

theorem of_error (h : Recorded failure status) (hstatus : status ≠ 0) (given? : Option α) :
    Told failure status given? (.error (failure (.ofCode status))) where
  toRecorded := h
  ok_iff a := by
    constructor
    · rintro ⟨⟩
    · exact fun hzero => absurd hzero.1 hstatus
  failed _ := rfl

end Told

/-! ## Operations -/

/-- The unit may be handed out with any status, or not at all. -/
theorem Index.Parsing.told {i : Pointer} {r : ParseRequest} {p : ParseCall}
    {result : Except Failure TranslationUnit} (h : Parsing i r calls result)
    (hp : ParseCall.ofRequest r = .ok p) :
    ∃ answer rest, calls = ⟨.parse i p.source p.args p.unsaved ⟨r.flags.bits⟩, answer⟩ :: rest ∧
      Told (.parse r.source) answer.status answer.unit result ∧
      (answer.status = 0 → answer.unit = none →
        result = .error (.parse r.source (.named .failure))) := by
  cases h with
  | refused hrefused => cases hrefused.symm.trans hp
  | @parsed p' answer u hp' hstatus hunit =>
    obtain rfl := Except.ok.inj (hp'.symm.trans hp)
    refine ⟨answer, [], rfl, ?_, fun _ hnone => ?_⟩
    · rw [hstatus, hunit]
      exact .of_ok (parse_recorded _ 0) u
    · cases hunit.symm.trans hnone
  | @unitless p' answer hp' hstatus hunit =>
    obtain rfl := Except.ok.inj (hp'.symm.trans hp)
    refine ⟨answer, [], rfl, ?_, fun _ _ => rfl⟩
    rw [hstatus, hunit]
    exact .of_missing (parse_recorded _ 0) _
  | @unparsed p' answer hp' hstatus =>
    obtain rfl := Except.ok.inj (hp'.symm.trans hp)
    refine ⟨answer, _, rfl, .of_error (parse_recorded _ _) hstatus _, fun hzero => ?_⟩
    exact absurd hzero hstatus

theorem TranslationUnit.Reparsing.told {logged : Bool} {u : TranslationUnit}
    {files : List UnsavedFile} {unsaved : ForeignArray UnsavedRecord}
    {result : Except Failure TranslationUnit} (h : u.Reparsing logged files calls result)
    (hfiles : UnsavedRecord.ofFiles files = .ok unsaved) :
    ∃ options status rest, calls = ⟨.number (.reparseOptions u), options⟩ ::
        ⟨.reparse u unsaved options, status⟩ :: rest ∧
      Told .reparse status (some u) result := by
  cases h with
  | refused hrefused => cases hrefused.symm.trans hfiles
  | failed hfiles' hstatus hcode =>
    obtain rfl := Except.ok.inj (hfiles'.symm.trans hfiles)
    subst hcode
    exact ⟨_, _, _, rfl, .of_error (reparse_recorded _) hstatus _⟩
  | reparsed hfiles' =>
    obtain rfl := Except.ok.inj (hfiles'.symm.trans hfiles)
    exact ⟨_, _, _, rfl, .of_ok (reparse_recorded 0) u⟩

/-- No other number means that saving went well. -/
theorem SaveStatus.ofCode_eq_none {code : UInt32} :
    (Coded.ofCode code : Coded SaveStatus) = .named .none ↔ code = 0 := by
  constructor
  · intro h
    rw [← SaveStatus.faithful.code_ofCode code, h]
    rfl
  · rintro rfl
    rfl

theorem TranslationUnit.save_reaches {u : TranslationUnit} {p : Path} {name : ForeignText}
    {result : Except Failure Unit} (hp : ForeignText.ofPath p = .ok name)
    (h : (u.save p).Reaches calls result) :
    ∃ options status,
      calls = [⟨.number (.saveOptions u), options⟩, ⟨.save u name options, status⟩] ∧
        Told (.save p) status (some ()) result := by
  unfold save at h
  rw [hp] at h
  obtain ⟨options, _, rfl, hsave⟩ := Reaches.of_ask h
  obtain ⟨status, _, rfl, rfl, rfl⟩ := Reaches.of_ask hsave
  refine ⟨options, status, rfl, ?_⟩
  by_cases hstatus : status = 0
  · subst hstatus
    rw [if_pos (SaveStatus.ofCode_eq_none.mpr rfl)]
    exact .of_ok (save_recorded p 0) ()
  · rw [if_neg (mt SaveStatus.ofCode_eq_none.mp hstatus)]
    exact .of_error (save_recorded p status) hstatus _

theorem TranslationUnit.save_yields (u : TranslationUnit) (p : Path) :
    (u.save p).Yields fun _ => True := by
  unfold save
  cases ForeignText.ofPath p with
  | error failure => exact yields_pure trivial
  | ok name =>
    exact (yields_ask _).bind fun _ _ => (yields_ask _).bind fun _ _ => yields_pure trivial

/-! ## Indexing -/

section

variable {σ π : Type} {consumer : Consumer σ π}

/-- What indexing comes to once the library is done with it. -/
def IndexAction.concluding (status : UInt32) : Except Failure Unit :=
  if status = 0 then .ok () else .error (.indexing (.ofCode status))

theorem IndexAction.concluding_told (status : UInt32) :
    Told .indexing status (some ()) (concluding status) := by
  unfold concluding
  split
  next hstatus =>
    subst hstatus
    exact .of_ok (indexing_recorded 0) ()
  next hstatus => exact .of_error (indexing_recorded status) hstatus _

/-- A run of the indexer is driven behind the call, and its status concludes it. -/
theorem IndexAction.index_run {logged : Bool} {a : Pointer} {u : TranslationUnit}
    {flags : IndexingFlags} {s s' : σ} {outcome : Except π UInt32} {l₁ l₂ : L} {note : Unit}
    (hlog : (logText logged (.unitSpelling u)).run library l = (some note, l₁))
    (hrun : ((library (.index a u ⟨flags.bits⟩) l₁).1.drive consumer s).run library
      (library (.index a u ⟨flags.bits⟩) l₁).2 = (some (s', outcome), l₂)) :
    (index logged a u flags consumer s).run library l =
      (some (s', outcome.map concluding), l₂) := by
  rw [index, bind_eq, run_bind hlog, bind_eq, ask_bind, run_call, bind_eq, run_bind hrun]
  simp only [Status.ofCode_eq_success]
  rfl

/-- Comes to an end with no panic: the library made these calls back, the consumer was told of them
and went on each time, and the status that the library gave in the end concludes it. -/
inductive IndexAction.Concludes (calls : List Exchange) (a : Pointer) (u : TranslationUnit)
    (flags : IndexingFlags) (told : List (Serving π)) :
    Except π (Except Failure Unit) → Prop where
  | intro {run : IndexRun} {made : List IndexCallback} {status : UInt32}
      {result : Except Failure Unit} (hcall : ⟨.index a u ⟨flags.bits⟩, run⟩ ∈ calls)
      (hmakes : run.Makes made status) (hheeded : Heeded told none made [])
      (htold : Told .indexing status (some ()) result) :
      Concludes calls a u flags told (.ok result)

/-- The recorded consumer and the consumer come to the same, and without a panic that is what the
status says. -/
theorem IndexAction.index_concludes (library : Library L) (l : L) (logged : Bool) (a : Pointer)
    (u : TranslationUnit) (flags : IndexingFlags) (hc : consumer.Responds) (s : σ) :
    ∃ told s' outcome l',
      (index logged a u flags consumer.recorded (s, [])).run library l =
        (some ((s', told), outcome), l') ∧
      (index logged a u flags consumer s).run library l = (some (s', outcome), l') ∧
      ((∀ e ∈ told, e.panic? = none) →
        Concludes ((index logged a u flags consumer s).trace library l) a u flags told
          outcome) := by
  obtain ⟨note, l₁, hlog, -⟩ := (logText_yields logged (.unitSpelling u)).exists_run library l
  obtain ⟨told, panic?, served, ignored, status, hmakes, hheeded, s', l₂, hrun, -⟩ :=
    (library (.index a u ⟨flags.bits⟩) l₁).1.passes library hc s []
      (library (.index a u ⟨flags.bits⟩) l₁).2
  rw [List.nil_append] at hrun
  have hplain := run_bind hrun fun o => .done o.undiaried
  rw [IndexRun.drive_undiaried] at hplain
  refine ⟨told, s', _, l₂, index_run hlog hrun, index_run hlog hplain, fun hcalm => ?_⟩
  have hcall : ⟨.index a u ⟨flags.bits⟩, (library (.index a u ⟨flags.bits⟩) l₁).1⟩ ∈
      (index logged a u flags consumer s).trace library l := by
    rw [index, bind_eq, trace_bind hlog, bind_eq, ask_bind, trace_call]
    exact List.mem_append_right _ List.mem_cons_self
  cases panic? with
  | none =>
    obtain ⟨rfl, -⟩ := hheeded.calm rfl
    rw [List.append_nil] at hmakes
    exact .intro hcall hmakes hheeded (concluding_told status)
  | some panic =>
    obtain ⟨before, last, rfl, -, hlast⟩ := hheeded.panicked panic rfl
    have hcalm := hcalm last (List.mem_append_right _ List.mem_cons_self)
    cases hlast.symm.trans hcalm

end

/-- Whatever status an operation is answered with, it is told. -/
structure StatusesTold (library : Library L) (l : L) : Prop where
  parse : ∀ i r p, ParseCall.ofRequest r = .ok p → ∃ answer rest result,
    ((Index.parse i r).run library l).1 = some result ∧
    (Index.parse i r).trace library l =
      ⟨.parse i p.source p.args p.unsaved ⟨r.flags.bits⟩, answer⟩ :: rest ∧
    Told (.parse r.source) answer.status answer.unit result ∧
    (answer.status = 0 → answer.unit = none →
      result = .error (.parse r.source (.named .failure)))
  reparse : ∀ logged (u : TranslationUnit) files unsaved,
    UnsavedRecord.ofFiles files = .ok unsaved → ∃ options status rest result,
      ((u.reparse logged files).run library l).1 = some result ∧
      (u.reparse logged files).trace library l =
        ⟨.number (.reparseOptions u), options⟩ :: ⟨.reparse u unsaved options, status⟩ :: rest ∧
      Told .reparse status (some u) result
  save : ∀ (u : TranslationUnit) p name, ForeignText.ofPath p = .ok name →
    ∃ options status result,
      ((u.save p).run library l).1 = some result ∧
      (u.save p).trace library l =
        [⟨.number (.saveOptions u), options⟩, ⟨.save u name options, status⟩] ∧
      Told (.save p) status (some ()) result
  /-- Whether the consumer panics is seen by its diary. -/
  index : ∀ {σ π : Type} logged a u flags (consumer : Consumer σ π), consumer.Responds → ∀ s,
    ∃ told s' outcome l',
      (IndexAction.index logged a u flags consumer.recorded (s, [])).run library l =
        (some ((s', told), outcome), l') ∧
      (IndexAction.index logged a u flags consumer s).run library l = (some (s', outcome), l') ∧
      ((∀ e ∈ told, e.panic? = none) →
        IndexAction.Concludes ((IndexAction.index logged a u flags consumer s).trace library l)
          a u flags told outcome)

/-- **Statuses.** No status is lost: zero and something to give is all that goes well, and every
other status is in the failure and in its sentence. -/
theorem every_status_told (library : Library L) (l : L) : StatusesTold library l where
  parse i r p hp := by
    obtain ⟨result, _, hrun, -⟩ := (Index.parse_yields i r).exists_run library l
    obtain ⟨answer, rest, hcalls, htold, hmissing⟩ :=
      (Index.parse_reaches (reaches_of_run hrun)).told hp
    exact ⟨answer, rest, result, congrArg Prod.fst hrun, hcalls, htold, hmissing⟩
  reparse logged u files unsaved hfiles := by
    obtain ⟨result, _, hrun, -⟩ :=
      (TranslationUnit.reparse_yields logged u files).exists_run library l
    obtain ⟨options, status, rest, hcalls, htold⟩ :=
      (TranslationUnit.reparse_reaches (reaches_of_run hrun)).told hfiles
    exact ⟨options, status, rest, result, congrArg Prod.fst hrun, hcalls, htold⟩
  save u p name hp := by
    obtain ⟨result, _, hrun, -⟩ := (TranslationUnit.save_yields u p).exists_run library l
    obtain ⟨options, status, hcalls, htold⟩ :=
      TranslationUnit.save_reaches hp (reaches_of_run hrun)
    exact ⟨options, status, result, congrArg Prod.fst hrun, hcalls, htold⟩
  index logged a u flags _ hc s := IndexAction.index_concludes library l logged a u flags hc s

/-! ## Statuses without a name -/

/-- A library whose operations all fail, two of them with a status that has no name. -/
def failingScript : Script where
  parsing.status := 7
  reparseStatuses := [4294967295]
  saveStatus := 2
  indexing.events := [.declaration none]
  indexing.status := 3

theorem failing_statuses_told :
    (∃ answer : ParseAnswer, Told (.parse ⟨[97, 46, 99]⟩) answer.status answer.unit
      (.error (.parse ⟨[97, 46, 99]⟩ (.unknown 7)))) ∧
    (∃ status, Told .reparse status (some (TranslationUnit.mk 1))
      (.error (.reparse (.unknown 4294967295)))) ∧
    (∃ status, Told (.save ⟨[97]⟩) status (some ())
      (.error (.save ⟨[97]⟩ (.named .translationErrors)))) ∧
    ∃ calls told, IndexAction.Concludes (π := String) calls none ⟨1⟩ ⟨0⟩ told
      (.ok (.error (.indexing (.named .invalidArguments)))) := by
  have htold := every_status_told failingScript.library {}
  refine ⟨?_, ?_, ?_, ?_⟩
  · obtain ⟨p, hp⟩ : ∃ p, ParseCall.ofRequest (ParseRequest.withFile .fit) = .ok p := ⟨_, rfl⟩
    obtain ⟨answer, rest, result, hrun, -, hparse, -⟩ := htold.parse none _ p hp
    have hresult : ((Index.parse none (ParseRequest.withFile .fit)).run
        failingScript.library {}).1 = some (.error (.parse ⟨[97, 46, 99]⟩ (.unknown 7))) := by
      decide +kernel
    obtain rfl := Option.some.inj (hrun.symm.trans hresult)
    exact ⟨answer, hparse⟩
  · obtain ⟨options, status, rest, result, hrun, -, hreparse⟩ :=
      htold.reparse false ⟨1⟩ [] _ rfl
    have hresult : (((TranslationUnit.mk 1).reparse false []).run failingScript.library {}).1 =
        some (.error (.reparse (.unknown 4294967295))) := by
      decide +kernel
    obtain rfl := Option.some.inj (hrun.symm.trans hresult)
    exact ⟨status, hreparse⟩
  · obtain ⟨options, status, result, hrun, -, hsave⟩ := htold.save ⟨1⟩ ⟨[97]⟩ _ rfl
    have hresult : (((TranslationUnit.mk 1).save ⟨[97]⟩).run failingScript.library {}).1 =
        some (.error (.save ⟨[97]⟩ (.named .translationErrors))) := by
      decide +kernel
    obtain rfl := Option.some.inj (hrun.symm.trans hresult)
    exact ⟨status, hsave⟩
  · obtain ⟨told, s, outcome, l', hrecorded, -, hcalm⟩ :=
      htold.index false none ⟨1⟩ ⟨0⟩ hastyConsumer hastyConsumer_responds 0
    have hrun : ((IndexAction.index false none ⟨1⟩ ⟨0⟩ hastyConsumer.recorded (0, [])).run
        failingScript.library {}).1.all (fun o => o.1.2.all (fun e => e.panic?.isNone) ∧
          o.2.toOption = some (.error (.indexing (.named .invalidArguments)))) := by
      decide +kernel
    rw [hrecorded] at hrun
    obtain ⟨hnone, houtcome⟩ : (∀ e ∈ told, e.panic? = none) ∧
        outcome.toOption = some (.error (.indexing (.named .invalidArguments))) := by
      simpa using hrun
    have hconcludes := hcalm hnone
    cases outcome with
    | error panic => cases houtcome
    | ok result =>
      cases houtcome
      exact ⟨_, told, hconcludes⟩

end ClangLens
