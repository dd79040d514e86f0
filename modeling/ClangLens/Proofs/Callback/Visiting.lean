import Mathlib.Data.List.Forall2
import ClangLens.Inspect.Cursor
import ClangLens.Proofs.Callback.Diary

/-!
# Visits within visits

A visitor may visit children itself, with a visitor that may do the same. When one of them panics,
the library is told to stop in every visit that is open, innermost first, and to stop again whenever
it asks about a further child; no visitor is run any more, and the panic comes out of the outermost
visit. Without a panic the library is answered exactly what the visitors return.

The side of the visitors is read from a diary. The side of the library is read from the calls: a
visit that is open is what the library does next, depending on the answer, and the visits that are
open lie on a stack.
-/

namespace ClangLens

open Dialogue

variable {σ τ π L γ : Type}

/-! ## Visitors -/

/-- Whether a call has to do with a visit. -/
def Call.isVisit : Call → Bool
  | .visitChildren _ | .answerVisit _ => true
  | _ => false

/-- What a visitor does for one child. It makes calls and visits children itself, with some state
and some visitor for them, and in the end it answers or panics. -/
inductive VisitorCode (π : Type) : Type → Type 1 where
  | answer {σ : Type} (s : σ) (visit : Coded ChildVisit) : VisitorCode π σ
  | panic {σ : Type} (s : σ) (payload : π) : VisitorCode π σ
  | call {σ : Type} (c : Call) (plain : c.isVisit = false) (next : c.Answer → VisitorCode π σ) :
      VisitorCode π σ
  /-- `left` is what the visitor leaves behind if the visit panics. -/
  | visit {σ τ : Type} (c : Cursor) (t : τ) (visitor : τ → Cursor → Cursor → VisitorCode π τ)
      (left : τ → σ) (next : τ → Bool → VisitorCode π σ) : VisitorCode π σ

namespace VisitorCode

/-- A panic of a visit is not caught. -/
def run : {σ : Type} → VisitorCode π σ → Dialogue (Outcome σ π (Coded ChildVisit))
  | _, .answer s code => return (s, .ok code)
  | _, .panic s payload => return (s, .error payload)
  | _, .call c _ next => do (next (← ask c)).run
  | _, .visit c t visitor left next => do
    let (t, outcome) ← c.visit (fun t cursor parent => (visitor t cursor parent).run) t
    match outcome with
    | .ok broken => (next t broken).run
    | .error payload => return (left t, .error payload)

end VisitorCode

/-! ## The diary of visitors -/

/-- What happens to visitors, of whatever visit. -/
inductive VisitNote (π : Type) where
  | ran (cursor parent : Cursor)
  | returned (visit : Coded ChildVisit)
  | panicked (payload : π)
  /-- A visit came to its end. -/
  | visited (broken : Bool)

/-- The same code that keeps a diary, which goes through all visits. -/
def VisitorCode.recorded : {σ : Type} → VisitorCode π σ → List (VisitNote π) →
    VisitorCode π (σ × List (VisitNote π))
  | _, .answer s code, diary => .answer (s, diary ++ [.returned code]) code
  | _, .panic s payload, diary => .panic (s, diary ++ [.panicked payload]) payload
  | _, .call c plain next, diary => .call c plain fun answer => (next answer).recorded diary
  | _, .visit c t visitor left next, diary =>
    .visit c (t, diary)
      (fun (t, diary) cursor parent =>
        (visitor t cursor parent).recorded (diary ++ [.ran cursor parent]))
      (fun (t, diary) => (left t, diary))
      (fun (t, diary) broken => (next t broken).recorded (diary ++ [.visited broken]))

/-- The visitor whose code is given for every child. -/
def codedVisitor (visitor : σ → Cursor → Cursor → VisitorCode π σ) : Visitor σ π :=
  fun s cursor parent => (visitor s cursor parent).run

/-- The same visitor with a diary. -/
def recordedVisitor (visitor : σ → Cursor → Cursor → VisitorCode π σ) :
    Visitor (σ × List (VisitNote π)) π :=
  codedVisitor fun (s, diary) cursor parent =>
    (visitor s cursor parent).recorded (diary ++ [.ran cursor parent])

theorem VisitorCode.recorded_visit_run (c : Cursor) (t : τ)
    (visitor : τ → Cursor → Cursor → VisitorCode π τ) (left : τ → σ)
    (next : τ → Bool → VisitorCode π σ) (diary : List (VisitNote π)) :
    ((VisitorCode.visit c t visitor left next).recorded diary).run =
      c.visit (recordedVisitor visitor) (t, diary) >>= fun ((t, diary), outcome) =>
        match outcome with
        | .ok broken => ((next t broken).recorded (diary ++ [.visited broken])).run
        | .error payload => return ((left t, diary), .error payload) := by
  rw [VisitorCode.recorded, VisitorCode.run]
  rfl

/-! ## The side of the library -/

/-- What the library says of visits and is answered. -/
inductive VisitEvent where
  | asked (cursor parent : Cursor)
  | answered (code : UInt32)
  | ended (broken : UInt32)

/-- The number by which the library is told how to go on. -/
def ChildVisit.raw : Coded ChildVisit → UInt32
  | .named .stop => 0
  | .named .next => 1
  | .named .descend => 2
  | .unknown code => code

theorem ChildVisit.code_eq_raw (visit : Coded ChildVisit) : visit.code = raw visit := by
  cases visit with
  | named visit => cases visit <;> rfl
  | unknown code => rfl

theorem ChildVisit.stopCode_eq : stopCode = 0 := code_eq_raw (.named .stop)

/-- What a note answers to: a visitor is run when the library asks, what it returns is the answer,
and a visit says whether the library broke it off. -/
inductive VisitEvent.Matches : VisitEvent → VisitNote π → Prop where
  | ran (cursor parent : Cursor) : (asked cursor parent).Matches (.ran cursor parent)
  | returned (visit : Coded ChildVisit) :
      (answered (ChildVisit.raw visit)).Matches (.returned visit)
  | visited (broken : UInt32) : (ended broken).Matches (.visited (broken ≠ 0))

/-- What can be read from calls: the visits that are open, innermost first, by what the library does
on an answer, and everything that was said. -/
structure Conversation where
  frames : List (UInt32 → Traversal) := []
  events : List VisitEvent := []

namespace Conversation

/-- The library says what it does next in a visit. -/
def enter (v : Conversation) : Traversal → Conversation
  | .finished broken => { v with events := v.events ++ [.ended broken] }
  | .child cursor parent next => ⟨next :: v.frames, v.events ++ [.asked cursor parent]⟩

def step (v : Conversation) : Exchange → Conversation
  | ⟨.visitChildren _, traversal⟩ => v.enter traversal
  | ⟨.answerVisit code, _⟩ =>
    match v.frames with
    | [] => v
    | next :: frames => enter ⟨frames, v.events ++ [.answered code]⟩ (next code)
  | _ => v

/-- The conversation behind some calls. -/
def after (v : Conversation) (calls : List Exchange) : Conversation := calls.foldl step v

@[simp] theorem after_nil (v : Conversation) : v.after [] = v := rfl

@[simp] theorem after_cons (v : Conversation) (x : Exchange) (calls : List Exchange) :
    v.after (x :: calls) = (v.step x).after calls := rfl

theorem after_append (v : Conversation) (calls more : List Exchange) :
    v.after (calls ++ more) = (v.after calls).after more := List.foldl_append

theorem step_plain (v : Conversation) {c : Call} (h : c.isVisit = false) (answer : c.Answer) :
    v.step ⟨c, answer⟩ = v := by
  cases c <;> first | rfl | cases h

end Conversation

/-! ## Stopping -/

/-- What is said in the rest of a visit whose every child is answered with 0, to stop. -/
def Traversal.refusals : Traversal → List VisitEvent
  | .finished broken => [.ended broken]
  | .child cursor parent next => .asked cursor parent :: .answered 0 :: (next 0).refusals

/-- What is said from a panic on: every open visit is stopped and comes to its end, innermost
first. -/
def Conversation.unwinding (frames : List (UInt32 → Traversal)) : List VisitEvent :=
  frames.flatMap fun next => .answered 0 :: (next 0).refusals

/-- Only calls that tell the library to stop. -/
def Conversation.OnlyStops (calls : List Exchange) : Prop :=
  ∀ x ∈ calls, x.1 = .answerVisit 0

open Conversation (unwinding OnlyStops)

theorem Traversal.refuse_spec (library : Library L) (t : Traversal) (s : σ) (panic : π) (l : L) :
    ∃ l', (t.refuse s panic).run library l = (some (s, .error panic), l') ∧
      OnlyStops ((t.refuse s panic).trace library l) ∧
      ∀ frames events, (Conversation.enter ⟨frames, events⟩ t).after
        ((t.refuse s panic).trace library l) = ⟨frames, events ++ t.refusals⟩ := by
  induction t generalizing l with
  | finished broken => exact ⟨l, rfl, by simp [OnlyStops, Traversal.refuse], fun _ _ => rfl⟩
  | child cursor parent next ih =>
    rw [Traversal.refuse, ChildVisit.stopCode_eq]
    obtain ⟨l', hrun, hstops, hafter⟩ := ih 0 (library (.answerVisit 0) l).2
    refine ⟨l', hrun, ?_, fun frames events => ?_⟩
    · exact List.forall_mem_cons.mpr ⟨rfl, hstops⟩
    · refine (hafter frames _).trans ?_
      simp [Traversal.refusals, Conversation.enter]

/-! ## How calls go -/

/-- How calls go that begin at `start` and come to `outcome`, with `notes` taken meanwhile. Without
a panic the visits in `frames` are open again, and notes and events match, up to events still to
come and notes still to be taken. With a panic it is the last note; the calls up to there match the
notes, and the rest stops every visit that was opened since. -/
inductive Conversation.Course (start : Conversation) (frames : List (UInt32 → Traversal))
    (events : List VisitEvent) (calls : List Exchange) (notes : List (VisitNote π))
    (coming : γ → List VisitEvent) (missing : γ → List (VisitNote π)) : Except π γ → Prop where
  | calm {value : γ} (more : List VisitEvent)
      (after : start.after calls = ⟨frames, events ++ more⟩)
      (matching : List.Forall₂ VisitEvent.Matches (more ++ coming value) (notes ++ missing value)) :
      Course start frames events calls notes coming missing (.ok value)
  | panicked {payload : π} (more : List VisitEvent) (told : List (VisitNote π))
      (inner : List (UInt32 → Traversal)) (before rest : List Exchange)
      (notes_eq : notes = told ++ [.panicked payload]) (calls_eq : calls = before ++ rest)
      (until_panic : start.after before = ⟨inner ++ frames, events ++ more⟩)
      (matching : List.Forall₂ VisitEvent.Matches more told) (stops : OnlyStops rest)
      (after : start.after calls = ⟨frames, events ++ more ++ unwinding inner⟩) :
      Course start frames events calls notes coming missing (.error payload)

namespace Conversation.Course

variable {start mid : Conversation} {frames : List (UInt32 → Traversal)}
  {events : List VisitEvent} {calls : List Exchange} {notes : List (VisitNote π)}
  {coming : γ → List VisitEvent} {missing : γ → List (VisitNote π)} {outcome : Except π γ}

/-- A calm beginning is part of the course. -/
theorem prepend (first : List Exchange) (more : List VisitEvent) (told : List (VisitNote π))
    (h : Course mid frames (events ++ more) calls notes coming missing outcome)
    (hfirst : start.after first = mid) (hmatch : List.Forall₂ VisitEvent.Matches more told) :
    Course start frames events (first ++ calls) (told ++ notes) coming missing outcome := by
  cases h with
  | calm more' hafter hmatching =>
    refine .calm (more ++ more') ?_ ?_
    · rw [Conversation.after_append, hfirst, hafter, List.append_assoc]
    · rw [List.append_assoc, List.append_assoc]
      exact List.rel_append hmatch hmatching
  | panicked more' told' inner before rest hnotes hcalls huntil hmatching hstops hafter =>
    refine .panicked (more ++ more') (told ++ told') inner (first ++ before) rest ?_ ?_ ?_ ?_
      hstops ?_
    · rw [hnotes, List.append_assoc]
    · rw [hcalls, List.append_assoc]
    · rw [Conversation.after_append, hfirst, huntil, List.append_assoc]
    · exact List.rel_append hmatch hmatching
    · rw [Conversation.after_append, hfirst, hafter]
      simp

theorem map {δ : Type} {coming' : δ → List VisitEvent} {missing' : δ → List (VisitNote π)}
    (h : Course start frames events calls notes coming missing outcome) (f : γ → δ)
    (hcoming : ∀ value, coming value = coming' (f value))
    (hmissing : ∀ value, missing value = missing' (f value)) :
    Course start frames events calls notes coming' missing' (outcome.map f) := by
  cases h with
  | calm more hafter hmatching => exact .calm more hafter (by rwa [← hcoming, ← hmissing])
  | panicked more told inner before rest hnotes hcalls huntil hmatching hstops hafter =>
    exact .panicked more told inner before rest hnotes hcalls huntil hmatching hstops hafter

/-- A panic goes through what would have come next. -/
theorem through {δ : Type} {payload : π} {coming' : δ → List VisitEvent}
    {missing' : δ → List (VisitNote π)}
    (h : Course start frames events calls notes coming missing (.error payload)) :
    Course start frames events calls notes coming' missing' (.error payload) := by
  cases h with
  | panicked more told inner before rest hnotes hcalls huntil hmatching hstops hafter =>
    exact .panicked more told inner before rest hnotes hcalls huntil hmatching hstops hafter

/-- A panic that comes up in the visitor of a visit stops that visit as well. -/
theorem surface {next : UInt32 → Traversal} {payload : π} {stops : List Exchange}
    (h : Course start (next :: frames) events calls notes coming missing (.error payload))
    (hstops : OnlyStops stops)
    (hafter : ∀ events, Conversation.after ⟨next :: frames, events⟩ stops =
      ⟨frames, events ++ unwinding [next]⟩) :
    Course start frames events (calls ++ stops) notes coming missing (.error payload) := by
  cases h with
  | panicked more told inner before rest hnotes hcalls huntil hmatching hrest hend =>
    refine .panicked more told (inner ++ [next]) before (rest ++ stops) hnotes ?_ ?_ hmatching ?_ ?_
    · rw [hcalls, List.append_assoc]
    · rw [huntil, List.append_assoc, List.singleton_append]
    · exact List.forall_mem_append.mpr ⟨hrest, hstops⟩
    · rw [Conversation.after_append, hend, hafter]
      simp [unwinding]

end Conversation.Course

open Conversation (Course)

/-! ## How visits go -/

/-- A dialogue that takes notes comes to an outcome, and its calls go accordingly. -/
def Dialogue.Goes (library : Library L) (l : L) (start : Conversation)
    (frames : List (UInt32 → Traversal)) (events : List VisitEvent) (diary : List (VisitNote π))
    (coming : γ → List VisitEvent) (missing : γ → List (VisitNote π))
    (d : Dialogue (Outcome (σ × List (VisitNote π)) π γ)) : Prop :=
  ∃ s notes outcome l', d.run library l = (some ((s, diary ++ notes), outcome), l') ∧
    Course start frames events (d.trace library l) notes coming missing outcome

/-- How the code of a visitor goes, wherever it is run: its answer is still to be handed over. -/
def VisitorCode.GoesWell (library : Library L) (code : VisitorCode π σ) : Prop :=
  ∀ l frames events diary, Goes library l ⟨frames, events⟩ frames events diary
    (fun visit => [.answered visit.code]) (fun _ => []) (code.recorded diary).run

variable {library : Library L} {visitor : σ → Cursor → Cursor → VisitorCode π σ}

/-- By induction on the traversal, whose next children depend on the answers. -/
theorem Traversal.drive_goes (hv : ∀ s cursor parent, (visitor s cursor parent).GoesWell library)
    (t : Traversal) (s : σ) (l : L) (frames : List (UInt32 → Traversal))
    (events : List VisitEvent) (diary : List (VisitNote π)) :
    Goes library l (Conversation.enter ⟨frames, events⟩ t) frames events diary (fun _ => [])
      (fun broken => [.visited (broken ≠ 0)]) (t.drive (recordedVisitor visitor) (s, diary)) := by
  induction t generalizing s l frames events diary with
  | finished broken =>
    refine ⟨s, [], .ok broken, l, by rw [List.append_nil]; rfl,
      .calm [.ended broken] rfl ?_⟩
    exact .cons (.visited broken) .nil
  | child cursor parent next ih =>
    obtain ⟨s', notes, outcome, l₁, hrun, hcourse⟩ :=
      hv s cursor parent l (next :: frames) (events ++ [.asked cursor parent])
        (diary ++ [.ran cursor parent])
    have hasked : List.Forall₂ VisitEvent.Matches [.asked cursor parent]
        [VisitNote.ran (π := π) cursor parent] := .cons (.ran cursor parent) .nil
    have hvisitor : ((recordedVisitor visitor) (s, diary) cursor parent).run library l =
        (some ((s', diary ++ [.ran cursor parent] ++ notes), outcome), l₁) := hrun
    rw [Traversal.drive, bind_eq]
    cases outcome with
    | ok visit =>
      cases hcourse with
      | calm more hafter hmatching =>
        obtain ⟨s'', notes', outcome', l₂, hrest, hcourse'⟩ :=
          ih visit.code s' (library (.answerVisit visit.code) l₁).2 frames
            (events ++ [.asked cursor parent] ++ (more ++ [.answered visit.code]))
            (diary ++ [.ran cursor parent] ++ notes)
        refine ⟨s'', [.ran cursor parent] ++ (notes ++ notes'), outcome', l₂, ?_, ?_⟩
        · rw [run_bind hvisitor]
          exact hrest.trans (by simp)
        · rw [trace_bind hvisitor]
          refine Course.prepend [] _ _ ?_ rfl hasked
          have hrest := Course.prepend (_ ++ [⟨.answerVisit visit.code, ()⟩]) _ notes hcourse'
            (by rw [Conversation.after_append, hafter, ← List.append_assoc]; rfl)
            (by simpa using hmatching)
          rwa [List.append_assoc] at hrest
    | error payload =>
      rw [ChildVisit.stopCode_eq]
      obtain ⟨l₂, hrefuse, hstops, hend⟩ := (next 0).refuse_spec library
        (s', diary ++ [.ran cursor parent] ++ notes) payload (library (.answerVisit 0) l₁).2
      refine ⟨s', [.ran cursor parent] ++ notes, .error payload, l₂, ?_, ?_⟩
      · rw [run_bind hvisitor]
        exact hrefuse.trans (by simp)
      · rw [trace_bind hvisitor]
        refine Course.prepend [] _ _ ?_ rfl hasked
        -- Nothing is asked of the visitor behind the panic, so no note is taken any more.
        refine (hcourse.surface (List.forall_mem_cons.mpr ⟨rfl, hstops⟩) fun events' => ?_).through
        refine (hend frames (events' ++ [.answered 0])).trans ?_
        simp [unwinding]

theorem Cursor.visit_goes (hv : ∀ s cursor parent, (visitor s cursor parent).GoesWell library)
    (c : Cursor) (s : σ) (l : L) (frames : List (UInt32 → Traversal)) (events : List VisitEvent)
    (diary : List (VisitNote π)) :
    Goes library l ⟨frames, events⟩ frames events diary (fun _ => [])
      (fun broken => [.visited broken]) (c.visit (recordedVisitor visitor) (s, diary)) := by
  obtain ⟨s', notes, outcome, l', hrun, hcourse⟩ :=
    (library (.visitChildren c) l).1.drive_goes hv s (library (.visitChildren c) l).2 frames events
      diary
  have htrace : (c.visit (recordedVisitor visitor) (s, diary)).trace library l =
      [⟨.visitChildren c, (library (.visitChildren c) l).1⟩] ++
        ((library (.visitChildren c) l).1.drive (recordedVisitor visitor) (s, diary)).trace library
          (library (.visitChildren c) l).2 := by
    rw [Cursor.visit, bind_eq, ask_bind, trace_call, bind_eq, trace_bind hrun]
    simp
  refine ⟨s', notes, outcome.map fun broken => broken ≠ 0, l', ?_, ?_⟩
  · rw [Cursor.visit, bind_eq, ask_bind, run_call, bind_eq, run_bind hrun]
    rfl
  · rw [htrace]
    refine Course.prepend _ [] [] ?_ rfl .nil
    rw [List.append_nil]
    exact hcourse.map _ (fun _ => rfl) fun _ => rfl

/-- **Every visitor.** By induction on the code. -/
theorem VisitorCode.goesWell (library : Library L) (code : VisitorCode π σ) :
    code.GoesWell library := by
  induction code with
  | answer s visit =>
    intro l frames events diary
    have hreturned : VisitEvent.Matches (π := π) (.answered visit.code) (.returned visit) := by
      rw [ChildVisit.code_eq_raw]
      exact .returned visit
    refine ⟨s, [.returned visit], .ok visit, l, rfl, .calm [] ?_ ?_⟩
    · rw [List.append_nil]
      rfl
    · exact .cons hreturned .nil
  | panic s payload =>
    intro l frames events diary
    refine ⟨s, [.panicked payload], .error payload, l, rfl,
      .panicked [] [] [] [] [] rfl rfl ?_ .nil ?_ ?_⟩
    · rw [List.append_nil]
      rfl
    · exact List.forall_mem_nil _
    · simp [unwinding, VisitorCode.recorded, VisitorCode.run]
  | call c plain next ih =>
    intro l frames events diary
    obtain ⟨s, notes, outcome, l', hrun, hcourse⟩ :=
      ih (library c l).1 (library c l).2 frames events diary
    refine ⟨s, notes, outcome, l', hrun, ?_⟩
    refine Course.prepend [⟨c, (library c l).1⟩] [] [] ?_ (Conversation.step_plain _ plain _) .nil
    rw [List.append_nil]
    exact hcourse
  | visit c t visitor left next ihv ih =>
    intro l frames events diary
    obtain ⟨t', notes, outcome, l₁, hrun, hcourse⟩ :=
      Cursor.visit_goes ihv c t l frames events diary
    rw [Goes, VisitorCode.recorded_visit_run, bind_eq, trace_bind hrun]
    cases outcome with
    | ok broken =>
      cases hcourse with
      | calm more hafter hmatching =>
        obtain ⟨s, notes', outcome', l₂, hrest, hcourse'⟩ :=
          ih t' broken l₁ frames (events ++ more) (diary ++ notes ++ [.visited broken])
        refine ⟨s, notes ++ [.visited broken] ++ notes', outcome', l₂, ?_, ?_⟩
        · rw [run_bind hrun]
          exact hrest.trans (by simp)
        · exact Course.prepend _ more _ hcourse' hafter (by simpa using hmatching)
    | error payload =>
      refine ⟨left t', notes, .error payload, l₁, ?_, ?_⟩
      · rw [run_bind hrun]
        rfl
      · simpa using hcourse.through

/-! ## The diary takes nothing away -/

theorem Traversal.refuse_undiaried (t : Traversal) (s : σ) (diary : List (VisitNote π))
    (panic : π) :
    ((t.refuse (s, diary) panic).bind fun o => .done o.undiaried) = t.refuse s panic := by
  induction t with
  | finished broken => rfl
  | child cursor parent next ih => exact congrArg (Dialogue.call _) (funext fun _ => ih _)

/-- The code does the same whatever is in its diary. -/
def VisitorCode.Undiaried (code : VisitorCode π σ) : Prop :=
  ∀ diary, ((code.recorded diary).run.bind fun o => .done o.undiaried) = code.run

theorem Traversal.drive_undiaried {visitor : σ → Cursor → Cursor → VisitorCode π σ}
    (hv : ∀ s cursor parent, (visitor s cursor parent).Undiaried) (t : Traversal) (s : σ)
    (diary : List (VisitNote π)) :
    ((t.drive (recordedVisitor visitor) (s, diary)).bind fun o => .done o.undiaried) =
      t.drive (codedVisitor visitor) s := by
  induction t generalizing s diary with
  | finished broken => rfl
  | child cursor parent next ih =>
    rw [Traversal.drive, Traversal.drive]
    refine bind_undiaried (hv s cursor parent _) fun ((s', diary'), outcome) => ?_
    cases outcome with
    | ok visit => exact congrArg (Dialogue.call _) (funext fun _ => ih _ s' diary')
    | error panic =>
      exact congrArg (Dialogue.call _) (funext fun _ => (next _).refuse_undiaried s' diary' panic)

theorem Cursor.visit_undiaried {visitor : σ → Cursor → Cursor → VisitorCode π σ}
    (hv : ∀ s cursor parent, (visitor s cursor parent).Undiaried) (c : Cursor) (s : σ)
    (diary : List (VisitNote π)) :
    ((c.visit (recordedVisitor visitor) (s, diary)).bind fun o => .done o.undiaried) =
      c.visit (codedVisitor visitor) s :=
  congrArg (Dialogue.call _) (funext fun t =>
    bind_undiaried (t.drive_undiaried hv s diary) fun _ => rfl)

theorem VisitorCode.undiaried (code : VisitorCode π σ) : code.Undiaried := by
  induction code with
  | answer s visit => exact fun _ => rfl
  | panic s payload => exact fun _ => rfl
  | call c plain next ih =>
    exact fun diary => congrArg (Dialogue.call _) (funext fun answer => ih answer diary)
  | visit c t visitor left next ihv ih =>
    intro diary
    rw [VisitorCode.recorded_visit_run, VisitorCode.run]
    refine bind_undiaried (Cursor.visit_undiaried ihv c t diary) fun ((t', diary'), outcome) => ?_
    cases outcome with
    | ok broken => exact ih t' broken _
    | error payload => rfl

/-! ## The outermost visit -/

/-- **Visits within visits.** Where no visitor panics, the library is answered what the visitors
return, and every visit says whether the library broke it off. Where one panics, no visitor is run
any more; every visit that is open is stopped, innermost first, for the child at hand and for each
further one, and the outermost visit comes to that panic. -/
theorem Cursor.visit_nested (library : Library L) (l : L) (c : Cursor) (s : σ)
    (visitor : σ → Cursor → Cursor → VisitorCode π σ) :
    ((c.visit (recordedVisitor visitor) (s, [])).bind fun o => .done o.undiaried) =
        c.visit (codedVisitor visitor) s ∧
      ∃ s' diary outcome l' calls,
        (c.visit (recordedVisitor visitor) (s, [])).run library l =
          (some ((s', diary), outcome), l') ∧
        (c.visit (recordedVisitor visitor) (s, [])).trace library l = calls ∧
        match outcome with
        | .ok broken => ∃ events, Conversation.after {} calls = ⟨[], events⟩ ∧
            List.Forall₂ VisitEvent.Matches events (diary ++ [.visited broken])
        | .error payload => ∃ told before rest frames events,
            diary = told ++ [.panicked payload] ∧ calls = before ++ rest ∧
            Conversation.after {} before = ⟨frames, events⟩ ∧
            List.Forall₂ VisitEvent.Matches events told ∧ OnlyStops rest ∧
            Conversation.after {} calls = ⟨[], events ++ unwinding frames⟩ := by
  refine ⟨c.visit_undiaried (fun s cursor parent => (visitor s cursor parent).undiaried) s [], ?_⟩
  obtain ⟨s', diary, outcome, l', hrun, hcourse⟩ :=
    c.visit_goes (fun s cursor parent => (visitor s cursor parent).goesWell library) s l [] [] []
  refine ⟨s', diary, outcome, l', _, hrun, rfl, ?_⟩
  cases hcourse with
  | calm more hafter hmatching =>
    exact ⟨more, hafter, by simpa using hmatching⟩
  | panicked more told inner before rest hnotes hcalls huntil hmatching hstops hafter =>
    rw [List.append_nil] at huntil
    exact ⟨told, before, rest, inner, more, hnotes, hcalls, huntil, hmatching, hstops, hafter⟩

end ClangLens
