import ClangLens.Foreign.Text
import ClangLens.Proofs.Running

/-!
# Following calls

What a run comes to is decided by its calls and their answers, whatever library gave them. So a
value is known by the calls that lead to it, and where a dialogue makes calls of one sort only, what
such calls leave alone is as it was. Two dialogues that start out the same can be followed side by
side until they part.
-/

namespace ClangLens

open Dialogue

variable {α β L : Type} {library : Library L} {calls : List Exchange}

namespace Dialogue

variable {d : Dialogue α} {f : α → Dialogue β}

/-! ## Answered so -/

/-- Comes to a value if these are its calls and they are answered so. -/
def Reaches : Dialogue α → List Exchange → α → Prop
  | .done a, calls, b => calls = [] ∧ a = b
  | .giveUp, _, _ => False
  | .call c k, calls, b => ∃ answer more, calls = ⟨c, answer⟩ :: more ∧ (k answer).Reaches more b

theorem reaches_of_run {a : α} {l l' : L} (h : d.run library l = (some a, l')) :
    d.Reaches (d.trace library l) a := by
  induction d generalizing l with
  | done b =>
    obtain ⟨rfl, -⟩ : b = a ∧ l = l' := by simpa using h
    exact ⟨rfl, rfl⟩
  | giveUp => simp at h
  | call c k ih => exact ⟨_, _, rfl, ih _ h⟩

/-- The calls of the first part come first. -/
theorem Reaches.of_bind {b : β} (h : (d >>= f).Reaches calls b) :
    ∃ a before after, calls = before ++ after ∧ d.Reaches before a ∧ (f a).Reaches after b := by
  induction d generalizing calls with
  | done a => exact ⟨a, [], calls, rfl, ⟨rfl, rfl⟩, h⟩
  | giveUp => exact h.elim
  | call c k ih =>
    obtain ⟨answer, more, rfl, hmore⟩ := h
    obtain ⟨a, before, after, rfl, hd, hf⟩ := ih answer hmore
    exact ⟨a, ⟨c, answer⟩ :: before, after, rfl, ⟨answer, before, rfl, hd⟩, hf⟩

theorem Reaches.of_ask {c : Call} {f : c.Answer → Dialogue β} {b : β}
    (h : (ask c >>= f).Reaches calls b) :
    ∃ answer more, calls = ⟨c, answer⟩ :: more ∧ (f answer).Reaches more b := h

theorem Reaches.of_releasing {r : Resource} {a : α} (h : (releasing r d).Reaches calls a) :
    ∃ inner, calls = inner ++ [⟨.release r, ()⟩] ∧ d.Reaches inner a := by
  obtain ⟨_, inner, _, rfl, hd, answer, more, rfl, rfl, rfl⟩ := h.of_bind
  exact ⟨inner, rfl, hd⟩

/-! ## Texts -/

/-- The calls by which a text is copied and released. -/
def copying (s : Option ForeignString) (bytes : Option Bytes) : List Exchange :=
  [⟨.stringBytes s, bytes⟩, ⟨.release (.string s), ()⟩]

/-- The calls by which a question for a text is asked. -/
def asking (q : TextQuestion) (s : Option ForeignString) (bytes : Option Bytes) : List Exchange :=
  ⟨.text q, s⟩ :: copying s bytes

theorem takeString_reaches {s : Option ForeignString} {text : String}
    (h : (takeString s).Reaches calls text) :
    ∃ bytes, calls = copying s bytes ∧ text = ForeignString.read bytes := by
  obtain ⟨bytes, _, rfl, hrelease⟩ := Reaches.of_ask h
  obtain ⟨_, _, rfl, rfl, rfl⟩ := Reaches.of_ask hrelease
  exact ⟨bytes, rfl, rfl⟩

theorem askText_reaches {q : TextQuestion} {text : String}
    (h : (askText q).Reaches calls text) :
    ∃ s bytes, calls = asking q s bytes ∧ text = ForeignString.read bytes := by
  obtain ⟨s, _, rfl, htake⟩ := Reaches.of_ask h
  obtain ⟨bytes, rfl, rfl⟩ := takeString_reaches htake
  exact ⟨s, bytes, rfl, rfl⟩

theorem logText_yields (logged : Bool) (q : TextQuestion) :
    (logText logged q).Yields fun _ => True := by
  unfold logText
  split
  · intro _ _ _
    trivial
  · trivial

/-! ## Calls of one sort -/

/-- Makes only calls that `p` holds of. -/
def Asks (p : Call → Prop) : Dialogue α → Prop
  | .done _ | .giveUp => True
  | .call c k => p c ∧ ∀ answer, (k answer).Asks p

variable {p : Call → Prop}

theorem Asks.bind (hd : d.Asks p) (hf : ∀ a, (f a).Asks p) : (d >>= f).Asks p := by
  induction d with
  | done a => exact hf a
  | giveUp => trivial
  | call c k ih => exact ⟨hd.1, fun answer => ih answer (hd.2 answer)⟩

theorem asks_ask {c : Call} (h : p c) : (ask c).Asks p := ⟨h, fun _ => trivial⟩

theorem asks_pure (a : α) : (pure a : Dialogue α).Asks p := trivial

theorem Asks.of_reaches {a : α} (hd : d.Asks p) (h : d.Reaches calls a) : ∀ x ∈ calls, p x.1 := by
  induction d generalizing calls with
  | done b =>
    obtain ⟨rfl, -⟩ := h
    exact List.forall_mem_nil _
  | giveUp => exact h.elim
  | call c k ih =>
    obtain ⟨answer, more, rfl, hmore⟩ := h
    exact List.forall_mem_cons.mpr ⟨hd.1, ih answer (hd.2 answer) hmore⟩

/-- What no such call changes is as it was behind all of them. -/
theorem Asks.run_eq {γ : Type} (hd : d.Asks p) (seen : L → γ)
    (h : ∀ c, p c → ∀ l, seen (library c l).2 = seen l) (l : L) :
    seen (d.run library l).2 = seen l := by
  induction d generalizing l with
  | done a => rfl
  | giveUp => rfl
  | call c k ih => exact (ih _ (hd.2 _) _).trans (h c hd.1 l)

theorem collectFrom_asks {f : UInt32 → Dialogue (Option α)} (h : ∀ i, (f i).Asks p) (i : UInt32)
    (n : Nat) : (collectFrom f i n).Asks p := by
  induction n generalizing i with
  | zero => exact asks_pure _
  | succ n ih => exact (h i).bind fun _ => (ih (i + 1)).bind fun _ => asks_pure _

theorem firstFrom_asks {f : UInt32 → Dialogue (Option α)} (h : ∀ i, (f i).Asks p) (i : UInt32)
    (n : Nat) : (firstFrom f i n).Asks p := by
  induction n generalizing i with
  | zero => exact asks_pure _
  | succ n ih =>
    refine (h i).bind fun found => ?_
    cases found with
    | some a => exact asks_pure _
    | none => exact ih (i + 1)

/-! ## Two runs -/

/-- From any state, if the first comes to a value so does the second, and they are related. -/
def Follows (library : Library L) (rel : α → β → Prop) (d : Dialogue α) (e : Dialogue β) : Prop :=
  ∀ l a l', d.run library l = (some a, l') →
    ∃ b l'', e.run library l = (some b, l'') ∧ rel a b

theorem follows_done {rel : α → β → Prop} {a : α} {b : β} (h : rel a b) :
    Follows library rel (.done a) (.done b) := by
  intro l _ l' hrun
  cases hrun
  exact ⟨b, l, rfl, h⟩

/-- Where the first parts are the same. -/
theorem Follows.bind {γ δ : Type} {rel : γ → δ → Prop} {f : α → Dialogue γ} {g : α → Dialogue δ}
    (h : ∀ a, Follows library rel (f a) (g a)) : Follows library rel (d >>= f) (d >>= g) := by
  intro l c l'' hrun
  obtain ⟨a, l', hd, hf⟩ := exists_run_of_bind hrun
  obtain ⟨b, l''', hg, hrel⟩ := h a l' c l'' hf
  exact ⟨b, l''', (run_bind hd g).trans hg, hrel⟩

/-- What is made of the values in the end is related too. -/
theorem Follows.map {γ δ : Type} {rel : α → β → Prop} {rel' : γ → δ → Prop} {e : Dialogue β}
    (h : Follows library rel d e) {f : α → γ} {g : β → δ}
    (hrel : ∀ a b, rel a b → rel' (f a) (g b)) :
    Follows library rel' (do return f (← d)) (do return g (← e)) := by
  intro l _ l'' hrun
  obtain ⟨a, l', hd, hvalue⟩ := exists_run_of_bind hrun
  cases hvalue
  obtain ⟨b, l₁, he, hab⟩ := h l a _ hd
  exact ⟨g b, l₁, run_bind he _, hrel a b hab⟩

theorem Follows.releasing {rel : α → β → Prop} {e : Dialogue β} (h : Follows library rel d e)
    (r : Resource) : Follows library rel (releasing r d) (releasing r e) := by
  intro l a l'' hrun
  obtain ⟨_, l', hd, hreleased⟩ := exists_run_of_bind hrun
  cases hreleased
  obtain ⟨b, l₁, he, hab⟩ := h l a l' hd
  exact ⟨b, _, run_bind he _, hab⟩

/-- Fewer of the same things one after another. -/
theorem mapM_follows {ι : Type} (f : ι → Dialogue α) (items : List ι) (n : Nat) :
    Follows library (fun all some => some = all.take n) (items.mapM f) ((items.take n).mapM f) := by
  induction items generalizing n with
  | nil =>
    rw [List.take_nil, List.mapM_nil]
    exact follows_done List.take_nil.symm
  | cons i rest ih =>
    cases n with
    | zero => exact fun l all l' _ => ⟨[], l, rfl, rfl⟩
    | succ n =>
      rw [List.take_succ_cons, List.mapM_cons, List.mapM_cons]
      refine .bind fun a => (ih n).map ?_
      rintro others _ rfl
      rfl

end Dialogue

end ClangLens
