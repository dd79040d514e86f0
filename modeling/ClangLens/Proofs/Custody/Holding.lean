import ClangLens.Foreign.Text
import ClangLens.Proofs.Custody.Stack

/-!
# What dialogues hold

A dialogue is orderly if, whatever the library answers, every call it makes is permitted. Then its
trace is stacked, in any library. What a dialogue does to the stack is said in one form: where some
things are held further down, it turns what lies on top into something else. A dialogue that leaves
the stack as it was is tidy.
-/

namespace ClangLens.Dialogue

variable {α β L : Type}

/-! ## Orderly dialogues -/

/-- Every call is permitted, whatever is answered, and `after` holds of the value and of what is
held in the end. -/
def Orderly (after : α → List Resource → Prop) (held : List Resource) : Dialogue α → Prop
  | .done a => after a held
  | .giveUp => True
  | .call c k => c.Permitted held ∧ ∀ answer, (k answer).Orderly after (c.heldAfter answer held)

theorem Orderly.mono {d : Dialogue α} {held : List Resource} {p q : α → List Resource → Prop}
    (h : d.Orderly p held) (hpq : ∀ a now, p a now → q a now) : d.Orderly q held := by
  induction d generalizing held with
  | done a => exact hpq _ _ h
  | giveUp => trivial
  | call c k ih => exact ⟨h.1, fun answer => ih answer (h.2 answer)⟩

theorem orderly_bind {d : Dialogue α} {f : α → Dialogue β} {held : List Resource}
    {after : β → List Resource → Prop} :
    (d.bind f).Orderly after held ↔ d.Orderly (fun a now => (f a).Orderly after now) held := by
  induction d generalizing held with
  | done a => rfl
  | giveUp => rfl
  | call c k ih => exact and_congr_right fun _ => forall_congr' fun answer => ih answer

/-- The trace of an orderly dialogue is stacked; if the dialogue has a value, then up to what is
held with it. -/
theorem Orderly.stacked {d : Dialogue α} {held : List Resource}
    {after : α → List Resource → Prop} (h : d.Orderly after held) (library : Library L) (l : L) :
    ∃ now, Trace.Stacked held (d.trace library l) now ∧
      ∀ a, (d.run library l).1 = some a → after a now := by
  induction d generalizing held l with
  | done a =>
    refine ⟨held, rfl, fun b hb => ?_⟩
    obtain rfl : a = b := by simpa using hb
    exact h
  | giveUp => exact ⟨held, rfl, by simp⟩
  | call c k ih =>
    obtain ⟨now, hstacked, hvalue⟩ := ih _ (h.2 _) (library c l).2
    exact ⟨now, ⟨h.1, hstacked⟩, hvalue⟩

/-! ## Moves on the stack -/

/-- Where `below` is held further down, turns what lies on top from `before` into `after`. -/
def Moves (below before : List Resource) (after : α → List Resource) (d : Dialogue α) : Prop :=
  ∀ held, (∀ r ∈ below, r.hasHandle → r ∈ held) →
    d.Orderly (fun a now => now = after a ++ held) (before ++ held)

/-- Leaves the stack as it was, where `below` is held. -/
def Tidy (below : List Resource) (d : Dialogue α) : Prop := d.Moves below [] fun _ => []

variable {below before : List Resource} {d : Dialogue α}

theorem moves_pure {after : α → List Resource} (a : α) :
    (pure a : Dialogue α).Moves below (after a) after := fun _ _ => rfl

theorem moves_giveUp {after : α → List Resource} :
    (giveUp : Dialogue α).Moves below before after := fun _ _ => trivial

theorem Moves.bind {mid : α → List Resource} {after : β → List Resource} {f : α → Dialogue β}
    (hd : d.Moves below before mid) (hf : ∀ a, (f a).Moves below (mid a) after) :
    (d >>= f).Moves below before after := by
  intro held hheld
  refine orderly_bind.mpr ((hd held hheld).mono ?_)
  rintro a now rfl
  exact hf a held hheld

/-- A tidy dialogue leaves alone what lies on top, and may use it. -/
theorem Tidy.moves (top : List Resource) (h : d.Tidy (top ++ below)) :
    d.Moves below top fun _ => top := by
  intro held hheld
  refine h (top ++ held) fun r hr handle => ?_
  rcases List.mem_append.mp hr with hr | hr
  · exact List.mem_append_left _ hr
  · exact List.mem_append_right _ (hheld r hr handle)

/-- A call that is no release puts on top what it hands out. -/
theorem moves_ask {c : Call} (hc : c.released? = none) (hargs : ∀ r ∈ c.arguments, r ∈ below) :
    (ask c).Moves below [] c.handedOut := by
  intro held hheld
  refine ⟨⟨fun r hr => hheld r (hargs r hr), by simp [hc]⟩, fun answer => ?_⟩
  show c.heldAfter answer held = _
  simp only [Call.heldAfter, hc]

theorem moves_release {r : Resource} (hr : r.isReal) :
    (ask (.release r)).Moves below [r] fun _ => [] := by
  intro held _
  refine ⟨⟨fun s hs _ => ?_, fun s hs _ => ?_⟩, fun _ => ?_⟩
  · simp_all [Call.arguments]
  · simp_all [Call.released?]
  · show (Call.release r).heldAfter () _ = _
    simp [Call.heldAfter, Call.released?, hr]

/-- Releasing where nothing was handed out does nothing. -/
theorem tidy_release {r : Resource} (hr : r.isReal = false) : (ask (.release r)).Tidy below := by
  intro held _
  refine ⟨⟨fun s hs handle => ?_, fun s hs real => ?_⟩, fun _ => ?_⟩
  · obtain rfl : s = r := by simpa [Call.arguments] using hs
    simp [s.isReal_of_hasHandle handle] at hr
  · obtain rfl : r = s := by simpa [Call.released?] using hs
    simp [real] at hr
  · show (Call.release r).heldAfter () _ = _
    simp [Call.heldAfter, Call.released?, hr]

/-- Whatever is real in `r` is released once a dialogue that leaves it alone is done. -/
theorem Tidy.releasing {r : Resource} (h : d.Tidy (r :: below)) :
    (releasing r d).Moves below ([r].filter Resource.isReal) fun _ => [] := by
  cases hr : r.isReal with
  | true =>
    rw [List.filter_cons_of_pos hr, List.filter_nil]
    exact (h.moves [r]).bind fun a => (moves_release hr).bind fun _ => moves_pure a
  | false =>
    rw [List.filter_cons_of_neg (by simp [hr]), List.filter_nil]
    have hd : d.Tidy below := by
      intro held hheld
      refine h held fun s hs handle => ?_
      rcases List.mem_cons.mp hs with rfl | hs
      · simp [s.isReal_of_hasHandle handle] at hr
      · exact hheld s hs handle
    exact hd.bind fun a => (tidy_release hr).bind fun _ => moves_pure a

/-! ## Tidy dialogues -/

theorem tidy_pure (a : α) : (pure a : Dialogue α).Tidy below := moves_pure a

theorem Tidy.bind {f : α → Dialogue β} (hd : d.Tidy below) (hf : ∀ a, (f a).Tidy below) :
    (d >>= f).Tidy below := Moves.bind hd hf

/-- What can be said of the ledger of a dialogue in a library that hands out no handle twice: it is
guarded as far as it goes, and settled if the dialogue has a value. -/
def Balances (library : Library L) (l : L) (d : Dialogue α) : Prop :=
  Trace.Fresh (d.trace library l) →
    Trace.Guarded (d.trace library l) ∧
      ((d.run library l).1.isSome → Trace.Settled (d.trace library l))

theorem Tidy.balances (h : d.Tidy []) (library : Library L) (l : L) : d.Balances library l := by
  intro fresh
  obtain ⟨now, hstacked, hvalue⟩ := (h [] (by simp)).stacked library l
  refine ⟨hstacked.guarded fresh, fun hsome => ?_⟩
  obtain ⟨a, ha⟩ := Option.isSome_iff_exists.mp hsome
  obtain rfl : now = [] := hvalue a ha
  exact hstacked.settled fresh

theorem tidy_ask {c : Call} (hc : c.released? = none) (hargs : ∀ r ∈ c.arguments, r ∈ below)
    (hout : ∀ answer, c.handedOut answer = []) : (ask c).Tidy below := by
  intro held hheld
  have h := moves_ask hc hargs held hheld
  simp only [hout] at h
  exact h

/-! ## Texts and numbers -/

theorem takeString_moves (s : Option ForeignString) :
    (takeString s).Moves below [.string s] fun _ => [] := by
  have hbytes : (ask (.stringBytes s)).Tidy ([.string s] ++ below) :=
    tidy_ask rfl (by simp [Call.arguments]) fun _ => rfl
  exact (hbytes.moves [.string s]).bind fun bytes => (moves_release rfl).bind fun _ => moves_pure _

theorem askText_tidy {q : TextQuestion} (h : ∀ r ∈ q.arguments, r ∈ below) :
    (askText q).Tidy below :=
  (moves_ask (c := .text q) rfl h).bind takeString_moves

theorem askText?_tidy {q : TextQuestion} (h : ∀ r ∈ q.arguments, r ∈ below) :
    (askText? q).Tidy below := (askText_tidy h).bind fun _ => tidy_pure _

theorem logText_tidy (logged : Bool) {q : TextQuestion} (h : ∀ r ∈ q.arguments, r ∈ below) :
    (logText logged q).Tidy below := by
  unfold logText
  split
  · exact (askText_tidy h).bind fun _ => tidy_pure _
  · exact tidy_pure _

theorem askNumber_tidy {q : NumberQuestion} (h : ∀ r ∈ q.arguments, r ∈ below) :
    (askNumber q).Tidy below := tidy_ask rfl h fun _ => rfl

theorem askTruth_tidy {q : NumberQuestion} (h : ∀ r ∈ q.arguments, r ∈ below) :
    (askTruth q).Tidy below := (askNumber_tidy h).bind fun _ => tidy_pure _

theorem askCode_tidy {γ : Type} [CodeTable γ] [DecidableEq γ] {q : NumberQuestion}
    (h : ∀ r ∈ q.arguments, r ∈ below) : (askCode (α := γ) q).Tidy below :=
  (askNumber_tidy h).bind fun _ => tidy_pure _

/-! ## Repeated questions -/

theorem collectFrom_tidy {f : UInt32 → Dialogue (Option α)} (hf : ∀ i, (f i).Tidy below) (n : Nat) :
    ∀ i, (collectFrom f i n).Tidy below := by
  induction n with
  | zero => exact fun _ => tidy_pure _
  | succ n ih => exact fun i => (hf i).bind fun _ => (ih _).bind fun _ => tidy_pure _

theorem collect_tidy {f : UInt32 → Dialogue (Option α)} (hf : ∀ i, (f i).Tidy below)
    (count : UInt32) : (collect count f).Tidy below := collectFrom_tidy hf _ _

theorem firstFrom_tidy {f : UInt32 → Dialogue (Option α)} (hf : ∀ i, (f i).Tidy below) (n : Nat) :
    ∀ i, (firstFrom f i n).Tidy below := by
  induction n with
  | zero => exact fun _ => tidy_pure _
  | succ n ih =>
    intro i
    refine (hf i).bind fun found => ?_
    cases found with
    | none => exact ih _
    | some a => exact tidy_pure _

theorem first_tidy {f : UInt32 → Dialogue (Option α)} (hf : ∀ i, (f i).Tidy below)
    (count : UInt32) : (first count f).Tidy below := firstFrom_tidy hf _ _

theorem atIndex_moves {after : Option α → List Resource} {count : Dialogue UInt32} {i : UInt32}
    {found : Dialogue (Option α)} (hcount : count.Tidy below)
    (hfound : found.Moves below [] after) (hnone : after none = []) :
    (atIndex count i found).Moves below [] after := by
  refine Moves.bind hcount fun n => ?_
  split
  · exact hfound
  · rw [← hnone]
    exact moves_pure _

end ClangLens.Dialogue
