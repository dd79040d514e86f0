import Mathlib.Data.List.Range
import ClangLens.Proofs.Following

/-!
# What is gathered on the way

A dialogue that takes up things one by one makes calls for each and keeps something of it or not. It
is described by what it does with one thing: the calls are those for each in turn, and what is kept
is what was kept of each, in the same order. So do the dialogues that go through the indices below a
count.
-/

namespace ClangLens

open Dialogue

variable {ι α β L : Type}

/-- The calls made for things and what is kept of them, where `met` says both of one thing. -/
inductive Gathered (met : ι → List Exchange → Option α → Prop) :
    List ι → List Exchange → List α → Prop where
  | nil : Gathered met [] [] []
  | cons {i : ι} {rest : List ι} {calls more : List Exchange} {kept? : Option α} {kept : List α}
      (first : met i calls kept?) (others : Gathered met rest more kept) :
      Gathered met (i :: rest) (calls ++ more) (kept?.toList ++ kept)

namespace Gathered

variable {met met' : ι → List Exchange → Option α → Prop} {items : List ι}
  {calls : List Exchange} {kept : List α}

/-- What is said of one thing may use that its calls are among all. -/
theorem imp_of_subset (h : Gathered met items calls kept)
    (himp : ∀ i ∈ items, ∀ these a?, these ⊆ calls → met i these a? → met' i these a?) :
    Gathered met' items calls kept := by
  induction h with
  | nil => exact .nil
  | @cons i rest these more a? kept hfirst _ ih =>
    rw [List.forall_mem_cons] at himp
    refine .cons (himp.1 _ _ (List.subset_append_left these more) hfirst) (ih ?_)
    intro j hj those b? hthose
    exact himp.2 j hj those b? (List.Subset.trans hthose (List.subset_append_right these more))

theorem forall_mem {p : Exchange → Prop} (h : Gathered met items calls kept)
    (hmet : ∀ i these a?, met i these a? → ∀ x ∈ these, p x) : ∀ x ∈ calls, p x := by
  induction h with
  | nil => exact List.forall_mem_nil _
  | cons hfirst _ ih => exact List.forall_mem_append.mpr ⟨hmet _ _ _ hfirst, ih⟩

theorem length_eq (h : Gathered met items calls kept)
    (hmet : ∀ i these a?, met i these a? → a?.isSome) : kept.length = items.length := by
  induction h with
  | nil => rfl
  | @cons i rest these more a? kept hfirst _ ih =>
    obtain ⟨a, rfl⟩ := Option.isSome_iff_exists.mp (hmet _ _ _ hfirst)
    simp [ih]

end Gathered

namespace Dialogue

variable {library : Library L} {l : L}

/-! ## Calls and values -/

/-- Comes to a value, and `p` holds of the calls made and of the value. -/
def Fits (library : Library L) (l : L) (p : List Exchange → α → Prop) (d : Dialogue α) : Prop :=
  ∃ a l', d.run library l = (some a, l') ∧ p (d.trace library l) a

theorem fits_done {p : List Exchange → α → Prop} {a : α} (h : p [] a) :
    (Dialogue.done a).Fits library l p := ⟨a, l, rfl, h⟩

theorem fits_call {p : List Exchange → α → Prop} {c : Call} {k : c.Answer → Dialogue α}
    (h : (k (library c l).1).Fits library (library c l).2
      fun calls a => p (⟨c, (library c l).1⟩ :: calls) a) :
    (Dialogue.call c k).Fits library l p := h

theorem Fits.mono {p q : List Exchange → α → Prop} {d : Dialogue α} (h : d.Fits library l p)
    (hpq : ∀ calls a, p calls a → q calls a) : d.Fits library l q := by
  obtain ⟨a, l', hrun, hp⟩ := h
  exact ⟨a, l', hrun, hpq _ _ hp⟩

theorem Fits.bind {p : List Exchange → α → Prop} {q : List Exchange → β → Prop} {d : Dialogue α}
    {f : α → Dialogue β} (hd : d.Fits library l p)
    (hf : ∀ calls a l', p calls a → (f a).Fits library l' fun more b => q (calls ++ more) b) :
    (d >>= f).Fits library l q := by
  obtain ⟨a, l', hrun, hp⟩ := hd
  obtain ⟨b, l'', hrun', hq⟩ := hf _ _ l' hp
  refine ⟨b, l'', ?_, ?_⟩
  · rw [bind_eq, run_bind hrun, hrun']
  · rw [bind_eq, trace_bind hrun]
    exact hq

theorem Fits.releasing {p : List Exchange → α → Prop} {d : Dialogue α} (h : d.Fits library l p)
    (r : Resource) :
    (releasing r d).Fits library l fun calls a =>
      ∃ inner, calls = inner ++ [⟨.release r, ()⟩] ∧ p inner a :=
  h.bind fun inner _ _ hp => fits_call (fits_done ⟨inner, rfl, hp⟩)

/-- What yields a value fits its own run. -/
theorem Yields.fits {d : Dialogue α} {p : α → Prop} (h : d.Yields p) :
    d.Fits library l fun calls a =>
      p a ∧ calls = d.trace library l ∧ ∃ l', d.run library l = (some a, l') := by
  obtain ⟨a, l', hrun, hp⟩ := h.exists_run library l
  exact ⟨a, l', hrun, hp, rfl, l', hrun⟩

/-! ## Indices -/

/-- The indices below a count. -/
def indices (n : UInt32) : List UInt32 := (List.range n.toNat).map UInt32.ofNat

theorem toNat_of_lt {n : UInt32} {k : ℕ} (h : k < n.toNat) : (UInt32.ofNat k).toNat = k :=
  UInt32.toNat_ofNat_of_lt' (h.trans n.toNat_lt)

theorem mem_indices {n i : UInt32} : i ∈ indices n ↔ i < n := by
  unfold indices
  rw [List.mem_map, UInt32.lt_iff_toNat_lt]
  constructor
  · rintro ⟨k, hk, rfl⟩
    rw [List.mem_range] at hk
    rwa [toNat_of_lt hk]
  · intro h
    exact ⟨i.toNat, List.mem_range.mpr h, UInt32.ofNat_toNat⟩

theorem indices_pairwise (n : UInt32) : (indices n).Pairwise (· < ·) := by
  unfold indices
  rw [List.pairwise_map]
  refine List.pairwise_lt_range.imp_of_mem fun {a b} ha hb hab => ?_
  rw [List.mem_range] at ha hb
  rw [UInt32.lt_iff_toNat_lt, toNat_of_lt ha, toNat_of_lt hb]
  exact hab

/-- Going through indices, by induction on how many are left. -/
theorem collectFrom_fits {met : UInt32 → List Exchange → Option α → Prop}
    {f : UInt32 → Dialogue (Option α)} (k n : ℕ)
    (h : ∀ j ∈ List.range' k n, ∀ l, (f (.ofNat j)).Fits library l (met (.ofNat j))) (l : L) :
    (collectFrom f (.ofNat k) n).Fits library l
      (Gathered met ((List.range' k n).map UInt32.ofNat)) := by
  induction n generalizing k l with
  | zero => exact fits_done .nil
  | succ n ih =>
    rw [List.range'_succ, List.forall_mem_cons] at h
    rw [List.range'_succ, List.map_cons, collectFrom]
    refine (h.1 l).bind fun calls kept? l' hfirst => ?_
    rw [← UInt32.ofNat_one, ← UInt32.ofNat_add]
    refine (ih (k + 1) h.2 l').bind fun more kept _ hothers => fits_done ?_
    rw [List.append_nil]
    exact .cons hfirst hothers

theorem collect_fits {met : UInt32 → List Exchange → Option α → Prop}
    {f : UInt32 → Dialogue (Option α)} (n : UInt32)
    (h : ∀ i < n, ∀ l, (f i).Fits library l (met i)) (l : L) :
    (collect n f).Fits library l (Gathered met (indices n)) := by
  unfold collect indices
  rw [List.range_eq_range']
  refine collectFrom_fits 0 n.toNat (fun j hj => h _ ?_) l
  rw [← List.range_eq_range', List.mem_range] at hj
  rwa [UInt32.lt_iff_toNat_lt, toNat_of_lt hj]

/-- The same for calls that lead to a value. -/
theorem collectFrom_reaches {f : UInt32 → Dialogue (Option α)}
    {met : UInt32 → List Exchange → Option α → Prop}
    (hf : ∀ i calls a?, (f i).Reaches calls a? → met i calls a?) (k n : ℕ)
    {calls : List Exchange} {kept : List α}
    (h : (collectFrom f (.ofNat k) n).Reaches calls kept) :
    Gathered met ((List.range' k n).map UInt32.ofNat) calls kept := by
  induction n generalizing k calls kept with
  | zero =>
    obtain ⟨rfl, rfl⟩ := h
    exact .nil
  | succ n ih =>
    obtain ⟨a?, before, _, rfl, hfirst, hrest⟩ := Reaches.of_bind h
    rw [← UInt32.ofNat_one, ← UInt32.ofNat_add] at hrest
    obtain ⟨others, more, _, rfl, hothers, rfl, rfl⟩ := hrest.of_bind
    rw [List.range'_succ, List.map_cons, List.append_nil]
    exact .cons (hf _ _ _ hfirst) (ih (k + 1) hothers)

theorem collect_reaches {f : UInt32 → Dialogue (Option α)}
    {met : UInt32 → List Exchange → Option α → Prop}
    (hf : ∀ i calls a?, (f i).Reaches calls a? → met i calls a?) {n : UInt32}
    {calls : List Exchange} {kept : List α}
    (h : (collect n f).Reaches calls kept) : Gathered met (indices n) calls kept := by
  unfold indices
  rw [List.range_eq_range']
  exact collectFrom_reaches hf 0 n.toNat h

end Dialogue

end ClangLens
