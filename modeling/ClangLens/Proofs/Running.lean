import ClangLens.Foreign.Dialogue

/-!
# What running a dialogue comes to

The run and the trace of a dialogue, step by step: a computation that goes on with the value of
another makes the calls of the first and then its own, from the state that the first leaves the
library in. A dialogue that nowhere gives up has a value whatever the library answers.
-/

namespace ClangLens.Dialogue

variable {α β L : Type} (library : Library L)

/-! ## Steps -/

@[simp] theorem run_done (a : α) (l : L) : (Dialogue.done a).run library l = (some a, l) := rfl

@[simp] theorem trace_done (a : α) (l : L) : (Dialogue.done a).trace library l = [] := rfl

@[simp] theorem run_giveUp (l : L) : (Dialogue.giveUp : Dialogue α).run library l = (none, l) :=
  rfl

@[simp] theorem trace_giveUp (l : L) : (Dialogue.giveUp : Dialogue α).trace library l = [] := rfl

@[simp] theorem run_call (c : Call) (k : c.Answer → Dialogue α) (l : L) :
    (Dialogue.call c k).run library l =
      (k (library c l).1).run library (library c l).2 := rfl

@[simp] theorem trace_call (c : Call) (k : c.Answer → Dialogue α) (l : L) :
    (Dialogue.call c k).trace library l =
      ⟨c, (library c l).1⟩ :: (k (library c l).1).trace library (library c l).2 := rfl

@[simp] theorem done_bind (a : α) (f : α → Dialogue β) : (Dialogue.done a).bind f = f a := rfl

@[simp] theorem giveUp_bind (f : α → Dialogue β) :
    (Dialogue.giveUp : Dialogue α).bind f = .giveUp := rfl

@[simp] theorem call_bind (c : Call) (k : c.Answer → Dialogue α) (f : α → Dialogue β) :
    (Dialogue.call c k).bind f = .call c fun answer => (k answer).bind f := rfl

@[simp] theorem ask_bind (c : Call) (f : c.Answer → Dialogue β) :
    (ask c).bind f = .call c f := rfl

/-! ## One after another -/

variable {library}

theorem run_bind {d : Dialogue α} {a : α} {l l' : L} (h : d.run library l = (some a, l'))
    (f : α → Dialogue β) : (d.bind f).run library l = (f a).run library l' := by
  induction d generalizing l with
  | done b =>
    obtain ⟨rfl, rfl⟩ : b = a ∧ l = l' := by simpa using h
    rfl
  | giveUp => simp at h
  | call c k ih => exact ih _ h

/-- What comes to a value did so in its first part. -/
theorem exists_run_of_bind {d : Dialogue α} {f : α → Dialogue β} {b : β} {l l'' : L}
    (h : (d.bind f).run library l = (some b, l'')) :
    ∃ a l', d.run library l = (some a, l') ∧ (f a).run library l' = (some b, l'') := by
  induction d generalizing l with
  | done a => exact ⟨a, l, rfl, h⟩
  | giveUp => simp at h
  | call c k ih => exact ih _ h

theorem trace_bind {d : Dialogue α} {a : α} {l l' : L} (h : d.run library l = (some a, l'))
    (f : α → Dialogue β) :
    (d.bind f).trace library l = d.trace library l ++ (f a).trace library l' := by
  induction d generalizing l with
  | done b =>
    obtain ⟨rfl, rfl⟩ : b = a ∧ l = l' := by simpa using h
    rfl
  | giveUp => simp at h
  | call c k ih =>
    rw [call_bind, trace_call, trace_call, ih _ h]
    rfl

/-- What is made of the value at the end makes no call. -/
theorem trace_map (d : Dialogue α) (f : α → β) (l : L) :
    (d.bind fun a => .done (f a)).trace library l = d.trace library l := by
  induction d generalizing l with
  | done a => rfl
  | giveUp => rfl
  | call c k ih => exact congrArg (_ :: ·) (ih _ _)

/-! ## Values -/

/-- Comes to a value that `p` holds of, whatever is answered. -/
def Yields (p : α → Prop) : Dialogue α → Prop
  | .done a => p a
  | .giveUp => False
  | .call c k => ∀ answer : c.Answer, (k answer).Yields p

theorem Yields.exists_run {d : Dialogue α} {p : α → Prop} (h : d.Yields p) (library : Library L)
    (l : L) : ∃ a l', d.run library l = (some a, l') ∧ p a := by
  induction d generalizing l with
  | done a => exact ⟨a, l, rfl, h⟩
  | giveUp => exact h.elim
  | call c k ih => exact ih _ (h _) _

theorem yields_pure {p : α → Prop} {a : α} (h : p a) : (pure a : Dialogue α).Yields p := h

theorem yields_ask (c : Call) : (ask c).Yields fun _ => True := fun _ => trivial

theorem Yields.bind {d : Dialogue α} {f : α → Dialogue β} {p : α → Prop} {q : β → Prop}
    (hd : d.Yields p) (hf : ∀ a, p a → (f a).Yields q) : (d >>= f).Yields q := by
  induction d with
  | done a => exact hf a hd
  | giveUp => exact hd.elim
  | call c k ih => exact fun answer => ih answer (hd answer)

theorem Yields.releasing {p : α → Prop} {d : Dialogue α} (h : d.Yields p) (r : Resource) :
    (releasing r d).Yields p :=
  h.bind fun _ ha => (yields_ask _).bind fun _ _ => yields_pure ha

end ClangLens.Dialogue
