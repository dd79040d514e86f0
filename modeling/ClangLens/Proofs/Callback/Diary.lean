import ClangLens.Inspect.Callback
import ClangLens.Proofs.Running

/-!
# Keeping a diary

What a visitor or a consumer is run on is seen by a diary in its state. The calls it makes are taken
down next to its outcome; neither changes what it does.
-/

namespace ClangLens

/-- Leaves a diary out of an outcome. -/
def Outcome.undiaried {σ ρ π α : Type} (o : Outcome (σ × ρ) π α) : Outcome σ π α := (o.1.1, o.2)

namespace Dialogue

variable {α β L : Type} {library : Library L}

/-- The value together with the calls made on the way. -/
def transcribed : Dialogue α → Dialogue (α × List Exchange)
  | .done a => .done (a, [])
  | .giveUp => .giveUp
  | .call c k =>
    .call c fun answer =>
      (k answer).transcribed.bind fun (a, calls) => .done (a, ⟨c, answer⟩ :: calls)

theorem run_transcribed {d : Dialogue α} {a : α} {l l' : L} (h : d.run library l = (some a, l')) :
    d.transcribed.run library l = (some (a, d.trace library l), l') := by
  induction d generalizing l with
  | done b =>
    obtain ⟨rfl, rfl⟩ : b = a ∧ l = l' := by simpa using h
    rfl
  | giveUp => simp at h
  | call c k ih =>
    rw [transcribed, run_call, run_bind (ih _ h)]
    rfl

theorem trace_transcribed (d : Dialogue α) (l : L) :
    d.transcribed.trace library l = d.trace library l := by
  induction d generalizing l with
  | done a => rfl
  | giveUp => rfl
  | call c k ih => rw [transcribed, trace_call, trace_map, ih, trace_call]

theorem transcribed_bind_fst (d : Dialogue α) (f : α → Dialogue β) :
    (d.transcribed.bind fun x => f x.1) = d.bind f := by
  induction d with
  | done a => rfl
  | giveUp => rfl
  | call c k ih =>
    rw [transcribed, call_bind, call_bind]
    congr 1
    funext answer
    rw [bind_assoc, ← ih answer]
    rfl

/-- What goes on alike with and without a diary comes to the same. -/
theorem bind_undiaried {σ ρ π γ : Type} {d : Dialogue (Outcome (σ × ρ) π α)}
    {d' : Dialogue (Outcome σ π α)} {f : Outcome (σ × ρ) π α → Dialogue β}
    {f' : Outcome σ π α → Dialogue γ} {g : β → Dialogue γ}
    (hd : (d.bind fun o => .done o.undiaried) = d')
    (hf : ∀ o, (f o).bind g = f' o.undiaried) : (d >>= f).bind g = d' >>= f' := by
  calc (d >>= f).bind g
      = d.bind fun o => (f o).bind g := bind_assoc _ _ _
    _ = d.bind fun o => f' o.undiaried := by simp only [hf]
    _ = (d.bind fun o => .done o.undiaried).bind f' :=
      (bind_assoc d (fun o => .done o.undiaried) f').symm
    _ = d' >>= f' := by rw [hd]; rfl

end Dialogue

end ClangLens
