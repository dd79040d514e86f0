import ClangLens.Inspect.Library
import ClangLens.Proofs.Following

/-!
# One guard at a time

Whoever loads the library gets a guard, and dropping the guard unloads the library. On one thread
this may be done again and again, and loading and unloading may fail each time. What the thread
remembers is then always whether there is a guard: there is never a second one, loading is asked for
exactly when there is none, and unloading once for each guard that is dropped.
-/

namespace ClangLens

open Dialogue

/-! ## Calls -/

def Call.isLoad : Call → Bool
  | .load => true
  | _ => false

def Call.isUnload : Call → Bool
  | .unload => true
  | _ => false

/-- What is asked for the log neither loads nor unloads. -/
theorem Dialogue.logText_asks (logged : Bool) (q : TextQuestion) :
    (logText logged q).Asks fun c => ¬c.isLoad ∧ ¬c.isUnload := by
  have hcopied : (askText q).Asks fun c => ¬c.isLoad ∧ ¬c.isUnload :=
    (asks_ask (by simp [Call.isLoad, Call.isUnload])).bind fun _ =>
      (asks_ask (by simp [Call.isLoad, Call.isUnload])).bind fun _ =>
        (asks_ask (by simp [Call.isLoad, Call.isUnload])).bind fun _ => asks_pure _
  unfold logText
  split
  · exact hcopied.bind fun _ => asks_pure _
  · exact asks_pure _

theorem Loading.drop_yields : Loading.drop.Yields fun _ => True :=
  (yields_ask _).bind fun _ _ => yields_pure trivial

theorem Loading.load_yields (logged : Bool) (loading : Loading) :
    (loading.load logged).Yields fun _ => True := by
  cases loading with
  | loaded => exact yields_pure trivial
  | idle =>
    refine (yields_ask _).bind fun answer _ => ?_
    cases answer with
    | error reason => exact yields_pure trivial
    | ok _ => exact (logText_yields logged _).bind fun _ _ => yields_pure trivial

/-! ## A thread -/

/-- What a thread remembers, and how many guards there are, of which it knows nothing. -/
structure Thread where
  loading : Loading
  guards : Nat

namespace Thread

/-- What is done on a thread. -/
inductive Step where
  | load
  /-- Drops a guard, if there is one. -/
  | drop
deriving DecidableEq

/-- Does one step. Loading comes to a guard or a failure. -/
def take (logged : Bool) (t : Thread) : Step → Dialogue (Option (Except Failure Unit) × Thread)
  | .load => do
    let (result, loading) ← t.loading.load logged
    return (some result, ⟨loading, if result.isOk then t.guards + 1 else t.guards⟩)
  | .drop => do
    if t.guards = 0 then return (none, t)
    let loading ← Loading.drop
    return (none, ⟨loading, t.guards - 1⟩)

/-- A step and what loading came to, with how many guards there were before and after it. -/
structure Moment where
  before : Nat
  step : Step
  result : Option (Except Failure Unit)
  after : Nat

def takeAll (logged : Bool) (t : Thread) : List Step → Dialogue (List Moment)
  | [] => return []
  | step :: steps => do
    let (result, t') ← t.take logged step
    return ⟨t.guards, step, result, t'.guards⟩ :: (← t'.takeAll logged steps)

/-- Before anything is done. -/
def fresh : Thread := ⟨.idle, 0⟩

/-- The thread remembers whether there is a guard. -/
inductive Aware : Thread → Prop where
  | idle : Aware ⟨.idle, 0⟩
  | loaded : Aware ⟨.loaded, 1⟩

/-! ## One step -/

/-- A moment with the calls made in it. -/
structure Turn extends Moment where
  calls : List Exchange

/-- All that happens in one step. -/
inductive Turn.Usual : Turn → Prop where
  | refused : Usual ⟨⟨1, .load, some (.error .alreadyLoaded), 1⟩, []⟩
  | loaded {noted : List Exchange} (h : ∀ x ∈ noted, ¬x.1.isLoad ∧ ¬x.1.isUnload) :
      Usual ⟨⟨0, .load, some (.ok ()), 1⟩, ⟨.load, .ok ()⟩ :: noted⟩
  | failed (reason : String) :
      Usual ⟨⟨0, .load, some (.error (.libraryLoad reason)), 0⟩, [⟨.load, .error reason⟩]⟩
  | dropped (answer : Except String Unit) :
      Usual ⟨⟨1, .drop, none, 0⟩, [⟨.unload, answer⟩]⟩
  | absent : Usual ⟨⟨0, .drop, none, 0⟩, []⟩

variable {logged : Bool} {t t' : Thread} {step : Step} {steps : List Step} {calls : List Exchange}
  {result : Option (Except Failure Unit)}

theorem take_reaches (ht : t.Aware) (h : (t.take logged step).Reaches calls (result, t')) :
    Turn.Usual ⟨⟨t.guards, step, result, t'.guards⟩, calls⟩ ∧ t'.Aware := by
  cases step with
  | load =>
    cases ht with
    | idle =>
      obtain ⟨⟨_, _⟩, _, _, rfl, hload, rfl, ⟨⟩⟩ := Reaches.of_bind h
      obtain ⟨answer, more, rfl, hanswer⟩ := Reaches.of_ask hload
      rw [List.append_nil]
      cases answer with
      | error reason =>
        obtain ⟨rfl, ⟨⟩⟩ := hanswer
        exact ⟨.failed reason, .idle⟩
      | ok _ =>
        obtain ⟨_, noted, _, rfl, hnoted, rfl, ⟨⟩⟩ := Reaches.of_bind hanswer
        rw [List.append_nil]
        exact ⟨.loaded ((logText_asks logged .version).of_reaches hnoted), .loaded⟩
    | loaded =>
      obtain ⟨rfl, ⟨⟩⟩ := h
      exact ⟨.refused, .loaded⟩
  | drop =>
    cases ht with
    | idle =>
      obtain ⟨rfl, ⟨⟩⟩ := h
      exact ⟨.absent, .idle⟩
    | loaded =>
      obtain ⟨answer, _, rfl, rfl, ⟨⟩⟩ := h
      exact ⟨.dropped answer, .idle⟩

theorem take_yields (logged : Bool) (t : Thread) (step : Step) :
    (t.take logged step).Yields fun _ => True := by
  cases step with
  | load => exact (t.loading.load_yields logged).bind fun _ _ => yields_pure trivial
  | drop =>
    unfold take
    dsimp only
    split
    · exact yields_pure trivial
    · exact Loading.drop_yields.bind fun _ _ => yields_pure trivial

namespace Turn

variable {turn : Turn}

/-- Loading was asked for, and the answer decided whether there is a guard. -/
def Asked (turn : Turn) : Prop :=
  ∃ answer more, turn.calls = ⟨.load, answer⟩ :: more ∧ (∀ x ∈ more, ¬x.1.isLoad) ∧
    turn.result = some (answer.mapError .libraryLoad) ∧ turn.after = if answer.isOk then 1 else 0

def unloads (turn : Turn) : Nat := turn.calls.countP fun x => x.1.isUnload

theorem Usual.guards_le (h : turn.Usual) : turn.before ≤ 1 ∧ turn.after ≤ 1 := by
  cases h <;> simp

theorem Usual.refused_iff (h : turn.Usual) (hstep : turn.step = .load) :
    turn.result = some (.error .alreadyLoaded) ↔ turn.before = 1 := by
  cases h <;> simp at hstep ⊢

theorem Usual.calls_of_refused (h : turn.Usual)
    (hresult : turn.result = some (.error .alreadyLoaded)) : turn.calls = [] := by
  cases h <;> simp at hresult ⊢

theorem Usual.asked (h : turn.Usual) (hstep : turn.step = .load) (hbefore : turn.before = 0) :
    turn.Asked := by
  cases h with
  | refused => cases hbefore
  | @loaded noted hnoted => exact ⟨.ok (), noted, rfl, fun x hx => (hnoted x hx).1, rfl, rfl⟩
  | failed reason => exact ⟨.error reason, [], rfl, by simp, rfl, rfl⟩
  | dropped | absent => cases hstep

theorem Usual.after_drop (h : turn.Usual) (hstep : turn.step = .drop) : turn.after = 0 := by
  cases h with
  | refused | loaded | failed => cases hstep
  | dropped | absent => rfl

theorem Usual.unloads_eq (h : turn.Usual) :
    turn.unloads = if turn.step = .drop ∧ turn.before = 1 then 1 else 0 := by
  cases h with
  | loaded hnoted => simpa [unloads, Call.isUnload] using fun x hx => (hnoted x hx).2
  | refused | failed | dropped | absent => rfl

end Turn

/-! ## All steps -/

/-- The guards after each step are those before the next. -/
inductive Linked : Nat → List Turn → Prop where
  | nil (n : Nat) : Linked n []
  | cons {n : Nat} {turn : Turn} {turns : List Turn} (hbefore : turn.before = n)
      (h : Linked turn.after turns) : Linked n (turn :: turns)

variable {n : Nat} {turn : Turn} {turns others : List Turn}

theorem Linked.behind (h : Linked n (others ++ turn :: turns)) : Linked turn.after turns := by
  induction others generalizing n with
  | nil =>
    cases h with
    | cons _ h => exact h
  | cons other others ih =>
    cases h with
    | cons _ h => exact ih h

/-- Without a guard there is none until the library is loaded. -/
theorem Linked.before_eq_zero (h : Linked 0 (others ++ turn :: turns))
    (hothers : ∀ other ∈ others, other.Usual ∧ other.step = .drop) : turn.before = 0 := by
  induction others with
  | nil =>
    cases h with
    | cons hbefore _ => exact hbefore
  | cons other others ih =>
    rw [List.forall_mem_cons] at hothers
    cases h with
    | cons _ h => exact ih (hothers.1.1.after_drop hothers.1.2 ▸ h) hothers.2

theorem takeAll_reaches (ht : t.Aware) {moments : List Moment}
    (h : (t.takeAll logged steps).Reaches calls moments) :
    ∃ turns : List Turn, turns.map Turn.toMoment = moments ∧ turns.map (·.step) = steps ∧
      turns.flatMap Turn.calls = calls ∧ Linked t.guards turns ∧ ∀ turn ∈ turns, turn.Usual := by
  induction steps generalizing t calls moments with
  | nil =>
    obtain ⟨rfl, rfl⟩ := h
    exact ⟨[], rfl, rfl, rfl, .nil _, by simp⟩
  | cons step steps ih =>
    obtain ⟨⟨result, t'⟩, before, _, rfl, htake, hrest⟩ := Reaches.of_bind h
    obtain ⟨hturn, ht'⟩ := take_reaches ht htake
    obtain ⟨moments, after, _, rfl, hafter, rfl, rfl⟩ := Reaches.of_bind hrest
    obtain ⟨turns, rfl, rfl, rfl, hlinked, husual⟩ := ih ht' hafter
    refine ⟨⟨⟨t.guards, step, result, t'.guards⟩, before⟩ :: turns, rfl, rfl, ?_,
      .cons rfl hlinked, ?_⟩
    · simp
    · simpa using ⟨hturn, husual⟩

theorem takeAll_yields (logged : Bool) (t : Thread) (steps : List Step) :
    (t.takeAll logged steps).Yields fun _ => True := by
  induction steps generalizing t with
  | nil => exact yields_pure trivial
  | cons step steps ih =>
    exact (take_yields logged t step).bind fun taken _ =>
      (ih taken.2).bind fun _ _ => yields_pure trivial

/-- What holds of the turns of a thread. -/
structure Guarded (turns : List Turn) : Prop where
  one : ∀ turn ∈ turns, turn.before ≤ 1 ∧ turn.after ≤ 1
  refused_iff : ∀ turn ∈ turns, turn.step = .load →
    (turn.result = some (.error .alreadyLoaded) ↔ turn.before = 1)
  /-- Refusing makes no call. -/
  refused : ∀ turn ∈ turns, turn.result = some (.error .alreadyLoaded) → turn.calls = []
  asked : ∀ turn ∈ turns, turn.step = .load → turn.before = 0 → turn.Asked
  /-- Whatever unloading says. -/
  dropped : ∀ turn ∈ turns, turn.step = .drop → turn.after = 0
  /-- Without a guard, be it that loading failed or that it was dropped, loading is asked for the
  next time. -/
  again : ∀ past turn drops next future, turns = past ++ turn :: (drops ++ next :: future) →
    turn.after = 0 → (∀ other ∈ drops, other.step = .drop) → next.step = .load → next.Asked
  unloads : ∀ turn ∈ turns, turn.unloads = if turn.step = .drop ∧ turn.before = 1 then 1 else 0

theorem guarded_of_linked (hlinked : Linked n turns) (h : ∀ turn ∈ turns, turn.Usual) :
    Guarded turns where
  one turn hturn := (h turn hturn).guards_le
  refused_iff turn hturn := (h turn hturn).refused_iff
  refused turn hturn := (h turn hturn).calls_of_refused
  asked turn hturn := (h turn hturn).asked
  dropped turn hturn := (h turn hturn).after_drop
  again := by
    rintro past turn drops next future rfl hafter hdrops hstep
    have hbehind : Linked 0 (drops ++ next :: future) := hafter ▸ hlinked.behind
    refine (h next (by simp)).asked hstep (hbehind.before_eq_zero fun other hother => ?_)
    exact ⟨h other (by simp [hother]), hdrops other hother⟩
  unloads turn hturn := (h turn hturn).unloads_eq

/-- Every call to unload belongs to a guard that is dropped. -/
theorem countP_unload (h : ∀ turn ∈ turns, turn.Usual) :
    (turns.flatMap Turn.calls).countP (fun x => x.1.isUnload) =
      turns.countP fun turn => turn.step = .drop ∧ turn.before = 1 := by
  induction turns with
  | nil => rfl
  | cons turn turns ih =>
    rw [List.forall_mem_cons] at h
    have hturn := h.1.unloads_eq
    unfold Turn.unloads at hturn
    rw [List.flatMap_cons, List.countP_append, List.countP_cons, ih h.2, hturn, Nat.add_comm]
    simp only [decide_eq_true_eq]

/-- **One guard at a time.** Whatever is answered, each step comes to an end, there is never more
than one guard, loading is refused exactly while there is one, and then without a call; it is asked
for whenever there is none, be it that loading failed or that unloading did; and there is one call
to unload for each guard that is dropped, and no other. -/
theorem one_guard {L : Type} (library : Library L) (l : L) (logged : Bool) (steps : List Step) :
    ∃ turns l', (fresh.takeAll logged steps).run library l =
        (some (turns.map Turn.toMoment), l') ∧
      (fresh.takeAll logged steps).trace library l = turns.flatMap Turn.calls ∧
      turns.map (·.step) = steps ∧ Linked 0 turns ∧ Guarded turns ∧
      ((fresh.takeAll logged steps).trace library l).countP (fun x => x.1.isUnload) =
        turns.countP fun turn => turn.step = .drop ∧ turn.before = 1 := by
  obtain ⟨moments, l', hrun, -⟩ := (takeAll_yields logged fresh steps).exists_run library l
  obtain ⟨turns, rfl, hsteps, hcalls, hlinked, husual⟩ :=
    takeAll_reaches .idle (reaches_of_run hrun)
  exact ⟨turns, l', hrun, hcalls.symm, hsteps, hlinked, guarded_of_linked hlinked husual,
    hcalls ▸ countP_unload husual⟩

end Thread

end ClangLens
