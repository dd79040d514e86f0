import ClangLens.Inspect.Indexing
import ClangLens.Proofs.Callback.Diary
import ClangLens.Proofs.Following
import ClangLens.Script.Library

/-!
# Indexing for a consumer that may panic

The library may make calls back in any order and go on after it was told to stop. The consumer is
run on every query and on every report that says of what, until it panics, and never again in that
run. Until then a query is answered as the consumer says; from then on every query is answered with
a stop, and the panic comes out in the end, whatever the status.

What a consumer is run on is seen by a diary that it is made to keep. The diary takes nothing away
from the consumer: without it, the same calls are made and the same comes of them.
-/

namespace ClangLens

open Dialogue

/-! ## Calls back -/

/-- A call back of the indexer, a query with the answer it got. -/
inductive IndexCallback where
  | abortQuery (answer : UInt32)
  | declaration (record : Option DeclarationRecord)
  | reference (record : Option ReferenceRecord)

/-- The calls back a run makes if its queries are answered so, and the status in the end. -/
inductive IndexRun.Makes : IndexRun → List IndexCallback → UInt32 → Prop where
  | finished {status : UInt32} : (finished status).Makes [] status
  | abortQuery {next : UInt32 → IndexRun} {answer status : UInt32} {made : List IndexCallback}
      (h : (next answer).Makes made status) :
      (IndexRun.abortQuery next).Makes (.abortQuery answer :: made) status
  | declaration {record : Option DeclarationRecord} {next : IndexRun} {status : UInt32}
      {made : List IndexCallback} (h : next.Makes made status) :
      (IndexRun.declaration record next).Makes (.declaration record :: made) status
  | reference {record : Option ReferenceRecord} {next : IndexRun} {status : UInt32}
      {made : List IndexCallback} (h : next.Makes made status) :
      (IndexRun.reference record next).Makes (.reference record :: made) status

/-- What a consumer is run on. -/
inductive Notice where
  | abortQuery
  | declaration (record : DeclarationRecord)
  | reference (record : ReferenceRecord)

namespace IndexCallback

/-- What there is in a call back for the consumer. -/
def notice? : IndexCallback → Option Notice
  | .abortQuery _ => some .abortQuery
  | .declaration record => record.map .declaration
  | .reference record => record.map .reference

def answer? : IndexCallback → Option UInt32
  | .abortQuery answer => some answer
  | _ => none

end IndexCallback

/-- The exchange by which a query is answered. -/
def answerExchanges (answer? : Option UInt32) : List Exchange :=
  answer?.toList.map fun code => ⟨.answerAbortQuery code, ()⟩

/-! ## The diary of a consumer -/

/-- What a consumer was run on, the calls it made and what came of it. -/
structure Serving (π : Type) where
  notice : Notice
  calls : List Exchange
  /-- Whether to stop; a report never says so. -/
  outcome : Except π Bool

namespace Serving

variable {π : Type}

def panic? (e : Serving π) : Option π :=
  match e.outcome with
  | .ok _ => none
  | .error panic => some panic

/-- The answer to a query: 1 or 0 as the consumer says, and 1 if it panics. -/
def answer? (e : Serving π) : Option UInt32 :=
  match e.notice, e.outcome with
  | .abortQuery, .ok stop => some (if stop then 1 else 0)
  | .abortQuery, .error _ => some 1
  | _, _ => none

/-- The calls of the consumer, and then the answer. -/
def exchanges (e : Serving π) : List Exchange := e.calls ++ answerExchanges e.answer?

end Serving

variable {σ π L : Type}

/-- Runs a method of a consumer and notes it down. -/
def Dialogue.noted {α : Type} (notice : Notice) (stop : α → Bool) (diary : List (Serving π))
    (d : Dialogue (Outcome σ π α)) : Dialogue (Outcome (σ × List (Serving π)) π α) := do
  let ((s, outcome), calls) ← d.transcribed
  return ((s, diary ++ [⟨notice, calls, outcome.map stop⟩]), outcome)

namespace Consumer

/-- The consumer with a diary. -/
def recorded (consumer : Consumer σ π) : Consumer (σ × List (Serving π)) π where
  abortRequested := fun (s, diary) => noted .abortQuery id diary (consumer.abortRequested s)
  declaration := fun (s, diary) record =>
    noted (.declaration record) (fun _ => false) diary (consumer.declaration s record)
  reference := fun (s, diary) record =>
    noted (.reference record) (fun _ => false) diary (consumer.reference s record)

/-- A consumer whose methods return or panic. -/
structure Responds (consumer : Consumer σ π) : Prop where
  abortRequested : ∀ s, (consumer.abortRequested s).Yields fun _ => True
  declaration : ∀ s record, (consumer.declaration s record).Yields fun _ => True
  reference : ∀ s record, (consumer.reference s record).Yields fun _ => True

end Consumer

/-! ## Ends -/

/-- Comes to an outcome and leaves the diary so, with these calls. -/
def Dialogue.Ends {γ : Type} (library : Library L) (l : L) (diary : List (Serving π))
    (outcome : Except π γ) (calls : List Exchange)
    (d : Dialogue (Outcome (σ × List (Serving π)) π γ)) : Prop :=
  ∃ s l', d.run library l = (some ((s, diary), outcome), l') ∧ d.trace library l = calls

section

variable {α γ : Type} {library : Library L} {l l' : L} {diary diary' : List (Serving π)}
  {end' : Except π γ} {calls calls' : List Exchange}

theorem Dialogue.Ends.congr {d : Dialogue (Outcome (σ × List (Serving π)) π γ)}
    (h : Ends library l diary end' calls d) (hd : diary = diary') (hc : calls = calls') :
    Ends library l diary' end' calls' d := by rwa [← hd, ← hc]

theorem Dialogue.Ends.after_ask {c : Call}
    {f : c.Answer → Dialogue (Outcome (σ × List (Serving π)) π γ)}
    (h : Ends library (library c l).2 diary end' calls (f (library c l).1)) :
    Ends library l diary end' (⟨c, (library c l).1⟩ :: calls) (ask c >>= f) := by
  obtain ⟨s, l', hrun, htrace⟩ := h
  exact ⟨s, l', hrun, congrArg (_ :: ·) htrace⟩

/-- The method is run once, and noted down before anything else happens. -/
theorem Dialogue.Ends.after_noted {d : Dialogue (Outcome σ π α)} {s : σ} {outcome : Except π α}
    {notice : Notice} {stop : α → Bool}
    {f : Outcome (σ × List (Serving π)) π α → Dialogue (Outcome (σ × List (Serving π)) π γ)}
    (hd : d.run library l = (some (s, outcome), l'))
    (h : Ends library l' diary' end' calls
      (f ((s, diary ++ [⟨notice, d.trace library l, outcome.map stop⟩]), outcome))) :
    Ends library l diary' end' (d.trace library l ++ calls) (noted notice stop diary d >>= f) := by
  obtain ⟨s', l'', hrun, htrace⟩ := h
  have hnoted : (noted notice stop diary d).run library l =
      (some ((s, diary ++ [⟨notice, d.trace library l, outcome.map stop⟩]), outcome), l') :=
    run_bind (run_transcribed hd) _
  have hcalls : (noted notice stop diary d).trace library l = d.trace library l :=
    (trace_map d.transcribed (fun x =>
      ((x.1.1, diary ++ [⟨notice, x.2, x.1.2.map stop⟩]), x.1.2)) l).trans (trace_transcribed d l)
  refine ⟨s', l'', (run_bind hnoted f).trans hrun, ?_⟩
  rw [bind_eq, trace_bind hnoted f, hcalls, htrace]

end

/-! ## What is heeded -/

/-- What a consumer was told, and its panic if it did, go with the calls back that were served and
those that were ignored. -/
structure Heeded (told : List (Serving π)) (panic? : Option π)
    (served ignored : List IndexCallback) : Prop where
  /-- It was run on exactly what there was for it in the calls back that were served. -/
  notices : served.filterMap IndexCallback.notice? = told.map Serving.notice
  answers : served.filterMap IndexCallback.answer? = told.filterMap Serving.answer?
  ignored_answers : ∀ code ∈ ignored.filterMap IndexCallback.answer?, code = 1
  /-- Without a panic nothing is ignored. -/
  calm : panic? = none → ignored = [] ∧ ∀ e ∈ told, e.panic? = none
  /-- Nothing is served behind the first panic. -/
  panicked : ∀ panic, panic? = some panic → ∃ before last, told = before ++ [last] ∧
    (∀ e ∈ before, e.panic? = none) ∧ last.panic? = some panic

namespace Heeded

variable {told : List (Serving π)} {panic? : Option π} {served ignored : List IndexCallback}
  {e : Serving π} {c : IndexCallback}

theorem nil : Heeded ([] : List (Serving π)) none [] [] where
  notices := rfl
  answers := rfl
  ignored_answers := by simp
  calm _ := by simp
  panicked := by simp

theorem skip (h : Heeded told panic? served ignored) (hn : c.notice? = none)
    (ha : c.answer? = none) : Heeded told panic? (c :: served) ignored where
  notices := by rw [List.filterMap_cons_none hn, h.notices]
  answers := by rw [List.filterMap_cons_none ha, h.answers]
  ignored_answers := h.ignored_answers
  calm := h.calm
  panicked := h.panicked

theorem cons (h : Heeded told panic? served ignored) (hn : c.notice? = some e.notice)
    (ha : c.answer? = e.answer?) (he : e.panic? = none) :
    Heeded (e :: told) panic? (c :: served) ignored where
  notices := by rw [List.filterMap_cons_some hn, h.notices, List.map_cons]
  answers := by rw [List.filterMap_cons, List.filterMap_cons, ha, h.answers]
  ignored_answers := h.ignored_answers
  calm hnone := ⟨(h.calm hnone).1, by simpa [he] using (h.calm hnone).2⟩
  panicked panic hp := by
    obtain ⟨before, last, rfl, hbefore, hlast⟩ := h.panicked panic hp
    exact ⟨e :: before, last, rfl, by simpa [he] using hbefore, hlast⟩

theorem last {panic : π} (hn : c.notice? = some e.notice) (ha : c.answer? = e.answer?)
    (he : e.panic? = some panic)
    (hignored : ∀ code ∈ ignored.filterMap IndexCallback.answer?, code = 1) :
    Heeded [e] (some panic) [c] ignored where
  notices := by simp [hn]
  answers := by simp [List.filterMap_cons, ha]
  ignored_answers := hignored
  calm := by simp
  panicked other hother := ⟨[], e, rfl, by simp, by rw [he, ← hother]⟩

end Heeded

/-! ## Going through a run -/

/-- The calls by which calls back are answered. -/
def IndexCallback.answers (made : List IndexCallback) : List Exchange :=
  made.flatMap fun c => answerExchanges c.answer?

/-- Behind a panic every query is answered with a stop, and nothing else is done. -/
theorem IndexRun.refuse_ends (library : Library L) (run : IndexRun) (s : σ)
    (diary : List (Serving π)) (panic : π) (l : L) :
    ∃ ignored status, run.Makes ignored status ∧
      (∀ code ∈ ignored.filterMap IndexCallback.answer?, code = 1) ∧
      Ends library l diary (.error panic) (IndexCallback.answers ignored)
        (run.refuse (s, diary) panic) := by
  induction run generalizing l with
  | finished status => exact ⟨[], status, .finished, by simp, s, l, rfl, rfl⟩
  | abortQuery next ih =>
    obtain ⟨ignored, status, hmakes, hcodes, hends⟩ := ih 1 (library (.answerAbortQuery 1) l).2
    exact ⟨.abortQuery 1 :: ignored, status, .abortQuery hmakes,
      by simpa [IndexCallback.answer?] using hcodes, Ends.after_ask hends⟩
  | declaration record next ih =>
    obtain ⟨ignored, status, hmakes, hcodes, hends⟩ := ih l
    exact ⟨.declaration record :: ignored, status, .declaration hmakes,
      by simpa [IndexCallback.answer?] using hcodes, hends⟩
  | reference record next ih =>
    obtain ⟨ignored, status, hmakes, hcodes, hends⟩ := ih l
    exact ⟨.reference record :: ignored, status, .reference hmakes,
      by simpa [IndexCallback.answer?] using hcodes, hends⟩

/-- A panic comes before the status. -/
def IndexRun.ending (panic? : Option π) (status : UInt32) : Except π UInt32 :=
  match panic? with
  | some panic => .error panic
  | none => .ok status

/-- How a dialogue goes that is a run of the indexer with the recorded consumer: the calls back that
were served and ignored, what the consumer was told, and the calls made. -/
def IndexRun.Passes (run : IndexRun) (library : Library L) (diary : List (Serving π)) (l : L)
    (d : Dialogue (Outcome (σ × List (Serving π)) π UInt32)) : Prop :=
  ∃ told panic? served ignored status, run.Makes (served ++ ignored) status ∧
    Heeded told panic? served ignored ∧
    Ends library l (diary ++ told) (ending panic? status)
      (told.flatMap Serving.exchanges ++ IndexCallback.answers ignored) d

/-- One report: the consumer is run on it, and goes on with the rest unless it panics. -/
theorem IndexRun.passes_report {library : Library L} {consumer : Consumer σ π}
    {d : Dialogue (Outcome σ π Unit)} (hd : d.Yields fun _ => True) {notice : Notice}
    {c : IndexCallback} (hquery : ∀ calls (outcome : Except π Bool),
      Serving.answer? ⟨notice, calls, outcome⟩ = none)
    (hnotice : c.notice? = some notice) (hanswer : c.answer? = none) {run next : IndexRun}
    (hmakes : ∀ {made status}, next.Makes made status → run.Makes (c :: made) status)
    (ih : ∀ s diary l, next.Passes library diary l (next.drive consumer.recorded (s, diary)))
    {diary : List (Serving π)} {l : L} :
    run.Passes library diary l
      (noted notice (fun _ => false) diary d >>= fun (s, outcome) =>
        match outcome with
        | .ok () => next.drive consumer.recorded s
        | .error panic => next.refuse s panic) := by
  obtain ⟨⟨s', outcome⟩, l', hrun, -⟩ := hd.exists_run library l
  let e : Serving π := ⟨notice, d.trace library l, outcome.map fun _ => false⟩
  have he : e.answer? = none := hquery _ _
  cases outcome with
  | ok _ =>
    obtain ⟨told, panic?, served, ignored, status, hnext, hheeded, hends⟩ :=
      ih s' (diary ++ [e]) l'
    refine ⟨e :: told, panic?, c :: served, ignored, status, hmakes hnext,
      hheeded.cons hnotice (hanswer.trans he.symm) rfl, (Ends.after_noted hrun hends).congr ?_ ?_⟩
    · simp
    · simp [Serving.exchanges, he, answerExchanges, e]
  | error panic =>
    obtain ⟨ignored, status, hnext, hcodes, hends⟩ :=
      next.refuse_ends library s' (diary ++ [e]) panic l'
    refine ⟨[e], some panic, [c], ignored, status, hmakes hnext,
      Heeded.last hnotice (hanswer.trans he.symm) rfl hcodes,
      (Ends.after_noted hrun hends).congr rfl ?_⟩
    simp [Serving.exchanges, he, answerExchanges, e]

/-- **Every run.** By induction on the run, whose next calls back depend on the answers. -/
theorem IndexRun.passes (library : Library L) {consumer : Consumer σ π} (hc : consumer.Responds)
    (run : IndexRun) (s : σ) (diary : List (Serving π)) (l : L) :
    run.Passes library diary l (run.drive consumer.recorded (s, diary)) := by
  induction run generalizing s diary l with
  | finished status =>
    exact ⟨[], none, [], [], status, .finished, .nil, s, l, by rw [List.append_nil]; rfl, rfl⟩
  | abortQuery next ih =>
    obtain ⟨⟨s', outcome⟩, l', hrun, -⟩ := (hc.abortRequested s).exists_run library l
    let e : Serving π := ⟨.abortQuery, (consumer.abortRequested s).trace library l, outcome⟩
    rw [IndexRun.drive]
    cases outcome with
    | ok stop =>
      obtain ⟨told, panic?, served, ignored, status, hmakes, hheeded, hends⟩ :=
        ih (truthCode stop) s' (diary ++ [e]) (library (.answerAbortQuery (truthCode stop)) l').2
      refine ⟨e :: told, panic?, .abortQuery (truthCode stop) :: served, ignored, status,
        .abortQuery hmakes, hheeded.cons rfl rfl rfl,
        (Ends.after_noted hrun (Ends.after_ask hends)).congr ?_ ?_⟩
      · simp
      · simp [Serving.exchanges, Serving.answer?, answerExchanges, e, truthCode]
    | error panic =>
      obtain ⟨ignored, status, hmakes, hcodes, hends⟩ :=
        (next 1).refuse_ends library s' (diary ++ [e]) panic (library (.answerAbortQuery 1) l').2
      refine ⟨[e], some panic, [.abortQuery 1], ignored, status, .abortQuery hmakes,
        Heeded.last rfl rfl rfl hcodes,
        (Ends.after_noted hrun (Ends.after_ask hends)).congr rfl ?_⟩
      simp [Serving.exchanges, Serving.answer?, answerExchanges, e, truthCode]
  | declaration record next ih =>
    cases record with
    | none =>
      obtain ⟨told, panic?, served, ignored, status, hmakes, hheeded, hends⟩ := ih s diary l
      exact ⟨told, panic?, .declaration none :: served, ignored, status, .declaration hmakes,
        hheeded.skip rfl rfl, hends⟩
    | some record =>
      rw [IndexRun.drive]
      exact passes_report (hc.declaration s record) (c := .declaration (some record))
        (fun _ _ => rfl) rfl rfl .declaration ih
  | reference record next ih =>
    cases record with
    | none =>
      obtain ⟨told, panic?, served, ignored, status, hmakes, hheeded, hends⟩ := ih s diary l
      exact ⟨told, panic?, .reference none :: served, ignored, status, .reference hmakes,
        hheeded.skip rfl rfl, hends⟩
    | some record =>
      rw [IndexRun.drive]
      exact passes_report (hc.reference s record) (c := .reference (some record))
        (fun _ _ => rfl) rfl rfl .reference ih

/-! ## The diary takes nothing away -/

theorem noted_undiaried {α : Type} (notice : Notice) (stop : α → Bool)
    (diary : List (Serving π)) (d : Dialogue (Outcome σ π α)) :
    ((noted notice stop diary d).bind fun o => .done o.undiaried) = d := by
  calc ((noted notice stop diary d).bind fun o => .done o.undiaried)
      = d.transcribed.bind fun x => .done x.1 := Dialogue.bind_assoc _ _ _
    _ = d.bind .done := transcribed_bind_fst d .done
    _ = d := bind_done d

theorem IndexRun.refuse_undiaried (run : IndexRun) (s : σ) (diary : List (Serving π))
    (panic : π) :
    ((run.refuse (s, diary) panic).bind fun o => .done o.undiaried) = run.refuse s panic := by
  induction run with
  | finished status => rfl
  | abortQuery next ih => exact congrArg (Dialogue.call _) (funext fun _ => ih _)
  | declaration record next ih => exact ih
  | reference record next ih => exact ih

theorem IndexRun.drive_undiaried (consumer : Consumer σ π) (run : IndexRun) (s : σ)
    (diary : List (Serving π)) :
    ((run.drive consumer.recorded (s, diary)).bind fun o => .done o.undiaried) =
      run.drive consumer s := by
  induction run generalizing s diary with
  | finished status => rfl
  | abortQuery next ih =>
    rw [IndexRun.drive, IndexRun.drive]
    refine bind_undiaried (noted_undiaried _ _ _ _) fun ((s', diary'), outcome) => ?_
    cases outcome with
    | ok stop => exact congrArg (Dialogue.call _) (funext fun _ => ih _ s' diary')
    | error panic =>
      exact congrArg (Dialogue.call _) (funext fun _ => (next _).refuse_undiaried s' diary' panic)
  | declaration record next ih =>
    cases record with
    | none => exact ih s diary
    | some record =>
      rw [IndexRun.drive, IndexRun.drive]
      refine bind_undiaried (noted_undiaried _ _ _ _) fun ((s', diary'), outcome) => ?_
      cases outcome with
      | ok _ => exact ih s' diary'
      | error panic => exact next.refuse_undiaried s' diary' panic
  | reference record next ih =>
    cases record with
    | none => exact ih s diary
    | some record =>
      rw [IndexRun.drive, IndexRun.drive]
      refine bind_undiaried (noted_undiaried _ _ _ _) fun ((s', diary'), outcome) => ?_
      cases outcome with
      | ok _ => exact ih s' diary'
      | error panic => exact next.refuse_undiaried s' diary' panic

/-! ## Indexing a unit -/

/-- No other number means success. -/
theorem Status.ofCode_eq_success {code : UInt32} :
    (Coded.ofCode code : Coded Status) = .named .success ↔ code = 0 := by
  refine ⟨fun h => ?_, fun h => by rw [h]; rfl⟩
  have hrows : ∀ e ∈ CodeTable.entries (α := Status), e.value = .success → e.code = 0 := by decide
  unfold Coded.ofCode at h
  split at h
  next e he =>
    have hcode : e.code = code := by simpa using List.find?_some he
    rw [← hcode]
    exact hrows e (List.mem_of_find?_eq_some he) (by simpa using h)
  · cases h

/-- What indexing comes to: a panic, else nothing or a failure with the status. -/
def IndexAction.ending (panic? : Option π) (status : UInt32) : Except π (Except Failure Unit) :=
  match panic? with
  | some panic => .error panic
  | none => .ok (if status = 0 then .ok () else .error (.indexing (.ofCode status)))

/-- **Indexing.** Whatever calls back the library makes, the consumer is run on those that are
served, and on nothing behind its first panic; the answers are its own up to there and 1 from there
on; and indexing comes to that panic, or without one to what the status says. The calls made are
those of the consumer and the answers, in this order. -/
theorem IndexAction.index_heeds (library : Library L) (l : L) (logged : Bool) (a : Pointer)
    (u : TranslationUnit) (flags : IndexingFlags) {consumer : Consumer σ π}
    (hc : consumer.Responds) (s : σ) :
    ((index logged a u flags consumer.recorded (s, [])).bind fun o => .done o.undiaried) =
        index logged a u flags consumer s ∧
      ∃ run told panic? served ignored status, IndexRun.Makes run (served ++ ignored) status ∧
        Heeded told panic? served ignored ∧
        Ends library l told (IndexAction.ending panic? status)
          ((logText logged (.unitSpelling u)).trace library l ++
            ⟨.index a u ⟨flags.bits⟩, run⟩ ::
              (told.flatMap Serving.exchanges ++ IndexCallback.answers ignored))
          (index logged a u flags consumer.recorded (s, [])) := by
  constructor
  · unfold IndexAction.index
    rw [bind_eq, bind_eq, Dialogue.bind_assoc]
    congr 1
    funext _
    refine congrArg (Dialogue.call _) (funext fun run => ?_)
    show ((run.drive consumer.recorded (s, [])).bind _).bind _ = (run.drive consumer s).bind _
    rw [← run.drive_undiaried consumer s [], Dialogue.bind_assoc, Dialogue.bind_assoc]
    rfl
  · obtain ⟨_, l₁, hlog, -⟩ := (logText_yields logged (.unitSpelling u)).exists_run library l
    obtain ⟨told, panic?, served, ignored, status, hmakes, hheeded, s', l₂, hrun, htrace⟩ :=
      (library (.index a u ⟨flags.bits⟩) l₁).1.passes library hc s []
        (library (.index a u ⟨flags.bits⟩) l₁).2
    refine ⟨_, told, panic?, served, ignored, status, hmakes, hheeded, s', l₂, ?_, ?_⟩
    · rw [IndexAction.index, bind_eq, run_bind hlog, bind_eq, ask_bind, run_call, bind_eq,
        run_bind hrun]
      cases panic? with
      | none => simp [IndexRun.ending, IndexAction.ending, Except.map, Status.ofCode_eq_success]
      | some panic => rfl
    · rw [IndexAction.index, bind_eq, trace_bind hlog, bind_eq, ask_bind, trace_call, bind_eq,
        trace_bind hrun, htrace]
      simp

/-- A consumer that panics when it is asked a second time. -/
def hastyConsumer : Consumer Nat String where
  abortRequested n := return (n + 1, if n = 0 then .ok false else .error "asked twice")
  declaration n _ := return (n, .ok ())
  reference n _ := return (n, .ok ())

theorem hastyConsumer_responds : hastyConsumer.Responds :=
  ⟨fun _ => yields_pure trivial, fun _ _ => yields_pure trivial, fun _ _ => yields_pure trivial⟩

/-- A library that reports nothing twice. -/
def twiceScript : Script where
  indexing.events := [.declaration none, .reference none]

theorem hastyConsumer_heeded : ∃ run told panic served ignored status,
    IndexRun.Makes run (served ++ ignored) status ∧
      Heeded (π := String) told (some panic) served ignored := by
  obtain ⟨-, run, told, panic?, served, ignored, status, hmakes, hheeded, s, l, hrun, -⟩ :=
    IndexAction.index_heeds twiceScript.library {} false none ⟨1⟩ ⟨0⟩ hastyConsumer_responds 0
  have hpanics : ((IndexAction.index false none ⟨1⟩ ⟨0⟩ hastyConsumer.recorded (0, [])).run
      twiceScript.library {}).1.all (fun o => o.2.toOption.isNone) := by decide +kernel
  rw [hrun] at hpanics
  cases panic? with
  | none => cases hpanics
  | some panic => exact ⟨run, told, panic, served, ignored, status, hmakes, hheeded⟩

end ClangLens
