import Mathlib.Data.List.Infix
import ClangLens.Inspect.Cursor
import ClangLens.Proofs.Running

/-!
# What the calls made so far say of a value

Where a value is made of answers, the calls made up to then show it, and they still do when more
calls are made. So a dialogue is followed with all the calls made before and in it: whatever is
answered, if it comes to a value, the calls bear it out.
-/

namespace ClangLens

open Dialogue

variable {α β σ L : Type} {calls : List Exchange}

/-- A property of calls that stays when more calls are made. -/
def Lasting (p : List Exchange → Prop) : Prop :=
  ∀ calls more, calls <+: more → p calls → p more

namespace Dialogue

/-- Whatever is answered, if it comes to a value, `post` holds of the value and of all calls made by
then, those before it included. -/
def Ensures : Dialogue α → List Exchange → (List Exchange → α → Prop) → Prop
  | .done a, calls, post => post calls a
  | .giveUp, _, _ => True
  | .call c k, calls, post => ∀ answer, (k answer).Ensures (calls ++ [⟨c, answer⟩]) post

variable {post post' : List Exchange → α → Prop} {d : Dialogue α}

/-! ## Rules -/

theorem ensures_done {a : α} (h : post calls a) : (Dialogue.done a).Ensures calls post := h

theorem Ensures.imp (h : d.Ensures calls post)
    (hpost : ∀ calls' a, calls <+: calls' → post calls' a → post' calls' a) :
    d.Ensures calls post' := by
  induction d generalizing calls with
  | done a => exact hpost calls a (List.prefix_refl _) h
  | giveUp => trivial
  | call c k ih =>
    intro answer
    refine ih answer (h answer) fun calls' a hcalls hp => ?_
    exact hpost calls' a ((List.prefix_append _ _).trans hcalls) hp

theorem Ensures.bind {f : α → Dialogue β} {post : List Exchange → β → Prop}
    (h : d.Ensures calls fun calls' a => (f a).Ensures calls' post) :
    (d >>= f).Ensures calls post := by
  induction d generalizing calls with
  | done a => exact h
  | giveUp => trivial
  | call c k ih => exact fun answer => ih answer (h answer)

theorem ensures_true (d : Dialogue α) : d.Ensures calls fun _ _ => True := by
  induction d generalizing calls with
  | done a => trivial
  | giveUp => trivial
  | call c k ih => exact fun answer => ih answer

/-- Whatever comes of the first part, more calls are made. -/
theorem Ensures.skip {f : α → Dialogue β} {post : List Exchange → β → Prop}
    (h : ∀ calls' a, calls <+: calls' → (f a).Ensures calls' post) :
    (d >>= f).Ensures calls post :=
  Ensures.bind ((ensures_true d).imp fun calls' a hcalls _ => h calls' a hcalls)

theorem Ensures.releasing (hpost : ∀ a, Lasting (post · a)) (h : d.Ensures calls post)
    (r : Resource) : (Dialogue.releasing r d).Ensures calls post := by
  refine Ensures.bind (h.imp fun calls' a _ hp => ?_)
  refine Ensures.skip fun more _ hcalls => ensures_done ?_
  exact hpost a _ _ hcalls hp

/-- **Runs.** What is ensured holds of the calls of every run with a value. -/
theorem Ensures.of_run (h : d.Ensures calls post) {library : Library L} {l l' : L} {a : α}
    (hrun : d.run library l = (some a, l')) : post (calls ++ d.trace library l) a := by
  induction d generalizing calls l with
  | done b =>
    obtain ⟨rfl, -⟩ : b = a ∧ l = l' := by simpa using hrun
    rw [trace_done, List.append_nil]
    exact h
  | giveUp => simp at hrun
  | call c k ih =>
    have hrest := ih _ (h (library c l).1) hrun
    rwa [List.append_assoc, List.singleton_append] at hrest

/-! ## Going through things -/

theorem ensures_none {post : List Exchange → α → Prop} :
    (pure none : Dialogue (Option α)).Ensures calls fun calls' found =>
      ∀ a ∈ found, post calls' a := by
  refine ensures_done ?_
  intro a ha
  cases ha

theorem Ensures.some (h : d.Ensures calls post) :
    (do return some (← d)).Ensures calls fun calls' found => ∀ a ∈ found, post calls' a := by
  refine Ensures.bind (h.imp fun calls' a _ hp => ensures_done ?_)
  intro b hb
  cases hb
  exact hp

/-- What holds of each value found at an index holds of all of them in the end. -/
theorem collectFrom_ensures {p : List Exchange → α → Prop} (hp : ∀ a, Lasting (p · a))
    {f : UInt32 → Dialogue (Option α)}
    (h : ∀ i calls, (f i).Ensures calls fun calls' found => ∀ a ∈ found, p calls' a) (n : Nat)
    (i : UInt32) :
    (collectFrom f i n).Ensures calls fun calls' found => ∀ a ∈ found, p calls' a := by
  induction n generalizing i calls with
  | zero => exact ensures_done (List.forall_mem_nil _)
  | succ n ih =>
    refine Ensures.bind ((h i calls).imp fun calls₁ found _ hfound => ?_)
    refine Ensures.bind ((ih (i + 1)).imp fun calls₂ rest hcalls hrest => ensures_done ?_)
    intro a ha
    rcases List.mem_append.mp ha with ha | ha
    · exact hp a _ _ hcalls (hfound a (Option.mem_toList.mp ha))
    · exact hrest a ha

theorem collect_ensures {p : List Exchange → α → Prop} (hp : ∀ a, Lasting (p · a))
    {f : UInt32 → Dialogue (Option α)}
    (h : ∀ i calls, (f i).Ensures calls fun calls' found => ∀ a ∈ found, p calls' a)
    (n : UInt32) : (collect n f).Ensures calls fun calls' found => ∀ a ∈ found, p calls' a :=
  collectFrom_ensures hp h n.toNat 0

/-- What every child leaves as it is holds behind a traversal, by induction on the traversal. -/
theorem drive_ensures {inv : List Exchange → σ → Prop} (hinv : ∀ s, Lasting (inv · s))
    {f : σ → Cursor → Dialogue σ}
    (h : ∀ s c calls, inv calls s → (f s c).Ensures calls inv) (traversal : Traversal) (s : σ)
    (hs : inv calls s) :
    (traversal.drive (π := Empty) (fun s child _ => do
      return (← f s child, .ok (.named .next))) s).Ensures calls fun calls' out =>
        inv calls' out.1 := by
  induction traversal generalizing calls s with
  | finished broken => exact ensures_done hs
  | child cursor parent next ih =>
    rw [Traversal.drive]
    refine Ensures.bind (Ensures.bind ((h s cursor calls hs).imp fun calls₁ s' _ hs' => ?_))
    refine ensures_done (Ensures.skip fun calls₂ _ hcalls => ?_)
    exact ih _ s' (hinv s' _ _ hcalls hs')

theorem foldChildren_ensures {inv : List Exchange → σ → Prop} (hinv : ∀ s, Lasting (inv · s))
    {f : σ → Cursor → Dialogue σ}
    (h : ∀ s c calls, inv calls s → (f s c).Ensures calls inv) (c : Cursor) (s : σ)
    (hs : inv calls s) : (c.foldChildren f s).Ensures calls inv := by
  refine Ensures.bind (Ensures.skip fun calls₁ traversal hcalls => ?_)
  refine Ensures.bind ((drive_ensures hinv h traversal s (hinv s _ _ hcalls hs)).imp ?_)
  exact fun _ _ _ hout => hout

end Dialogue

end ClangLens
