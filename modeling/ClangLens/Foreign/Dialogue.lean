import ClangLens.Foreign.Call

/-!
# Dialogues with the library

A computation that asks the library is a finite tree: it ends with a value, gives up without one, or
makes a call and goes on with the answer. What the library does is no part of it, so everything that
is said of a dialogue holds for every library; running one needs something that answers.
-/

namespace ClangLens

/-- A computation that asks the library. -/
inductive Dialogue (α : Type) where
  | done (value : α)
  /-- Gives up: what is looked at is nested too deep. -/
  | giveUp
  | call (call : Call) (next : call.Answer → Dialogue α)

namespace Dialogue

variable {α β : Type}

/-- The computation that goes on with the value of another. -/
def bind (d : Dialogue α) (next : α → Dialogue β) : Dialogue β :=
  match d with
  | .done a => next a
  | .giveUp => .giveUp
  | .call c k => .call c fun answer => (k answer).bind next

instance : Monad Dialogue where
  pure := .done
  bind := bind

/-- One call. -/
def ask (c : Call) : Dialogue c.Answer := .call c .done

@[simp] theorem pure_eq (a : α) : (pure a : Dialogue α) = .done a := rfl

@[simp] theorem bind_eq (d : Dialogue α) (next : α → Dialogue β) : d >>= next = d.bind next := rfl

@[simp] theorem bind_done (d : Dialogue α) : d.bind .done = d := by
  induction d with
  | done a => rfl
  | giveUp => rfl
  | call c k ih => exact congrArg (Dialogue.call c) (funext ih)

theorem bind_assoc {γ : Type} (d : Dialogue α) (f : α → Dialogue β) (g : β → Dialogue γ) :
    (d.bind f).bind g = d.bind fun a => (f a).bind g := by
  induction d with
  | done a => rfl
  | giveUp => rfl
  | call c k ih => exact congrArg (Dialogue.call c) (funext ih)

instance : LawfulMonad Dialogue := LawfulMonad.mk' _
  (fun d => bind_done d) (fun _ _ => rfl) (fun d f g => bind_assoc d f g)

/-! ## Running -/

/-- A call with the answer it got. -/
abbrev Exchange := (c : Call) × c.Answer

/-- A library as far as it can be seen: a state, and an answer to every call. -/
abbrev Library (σ : Type) := (c : Call) → σ → c.Answer × σ

/-- Runs a dialogue: its value, if it does not give up, and the state of the library behind it. -/
def run {σ : Type} (library : Library σ) (s : σ) : Dialogue α → Option α × σ
  | .done a => (some a, s)
  | .giveUp => (none, s)
  | .call c k =>
    let (answer, s) := library c s
    run library s (k answer)

/-- The calls made and their answers, in order. -/
def trace {σ : Type} (library : Library σ) (s : σ) : Dialogue α → List Exchange
  | .done _ | .giveUp => []
  | .call c k =>
    let (answer, s) := library c s
    ⟨c, answer⟩ :: trace library s (k answer)

/-! ## Repeated questions -/

/-- The values found at `n` indices from one on, in order. -/
def collectFrom (f : UInt32 → Dialogue (Option α)) (i : UInt32) : Nat → Dialogue (List α)
  | 0 => pure []
  | n + 1 => do
    let found ← f i
    let rest ← collectFrom f (i + 1) n
    return found.toList ++ rest

/-- The values found at the indices below a count, in order. -/
def collect (count : UInt32) (f : UInt32 → Dialogue (Option α)) : Dialogue (List α) :=
  collectFrom f 0 count.toNat

/-- The first value found at `n` indices from one on. -/
def firstFrom (f : UInt32 → Dialogue (Option α)) (i : UInt32) : Nat → Dialogue (Option α)
  | 0 => pure none
  | n + 1 => do
    match ← f i with
    | some a => return some a
    | none => firstFrom f (i + 1) n

/-- The first value found at the indices below a count. -/
def first (count : UInt32) (f : UInt32 → Dialogue (Option α)) : Dialogue (Option α) :=
  firstFrom f 0 count.toNat

/-- What is behind an index, if the index is below the count. -/
def atIndex (count : Dialogue UInt32) (i : UInt32) (found : Dialogue (Option α)) :
    Dialogue (Option α) := do
  if i < (← count) then found else return none

/-! ## Releasing -/

/-- Releases something once a computation is done with it. -/
def releasing (r : Resource) (d : Dialogue α) : Dialogue α := do
  let a ← d
  ask (.release r)
  return a

end Dialogue

end ClangLens
