import Mathlib.Tactic.ByContra
import ClangLens.Proofs.Custody.Ledger

/-!
# Traces that keep a stack

What is held is a stack. A call is permitted if everything it is handed is held, and a release only
if it is of what lies on top. A trace of permitted calls is guarded once handles are fresh, because
an owner lies below what belongs to it, and it is settled if the stack is empty in the end. Nothing
but counting is needed: what was handed out was released or is held.
-/

namespace ClangLens

open Dialogue (Exchange)

/-! ## The stack -/

/-- Whether a call may be made while `held` is held, latest first. -/
structure Call.Permitted (c : Call) (held : List Resource) : Prop where
  arguments_held : ∀ r ∈ c.arguments, r.hasHandle → r ∈ held
  releases_top : ∀ r, c.released? = some r → r.isReal → held.head? = some r

/-- What is held after a call. -/
def Call.heldAfter (c : Call) (answer : c.Answer) (held : List Resource) : List Resource :=
  match c.released? with
  | some r => if r.isReal then held.tail else held
  | none => c.handedOut answer ++ held

namespace Trace

/-- Every call is permitted, from what is held before to what is held after. -/
def Stacked (held : List Resource) : List Exchange → List Resource → Prop
  | [], now => held = now
  | x :: rest, now => x.1.Permitted held ∧ Stacked (x.1.heldAfter x.2 held) rest now

variable {t : List Exchange} {held now : List Resource}

theorem stacked_append {a b : List Exchange} :
    Stacked held (a ++ b) now ↔ ∃ mid, Stacked held a mid ∧ Stacked mid b now := by
  induction a generalizing held with
  | nil => simp [Stacked]
  | cons x a ih =>
    simp only [List.cons_append, Stacked, ih, and_assoc]
    exact exists_and_left.symm

theorem handedOut_release (r : Resource) (done : Unit) :
    (Call.release r).handedOut done = [] := rfl

/-- A call either releases what lies on top, or puts on top what it hands out. -/
theorem heldAfter_cases {x : Exchange} (hx : x.1.Permitted held) :
    (∃ r, x.1.released? = some r ∧ x.1.handedOut x.2 = [] ∧
      (r.isReal ∧ held = r :: x.1.heldAfter x.2 held ∨
        r.isReal = false ∧ x.1.heldAfter x.2 held = held)) ∨
    (x.1.released? = none ∧ x.1.heldAfter x.2 held = x.1.handedOut x.2 ++ held) := by
  obtain ⟨c, answer⟩ := x
  cases hc : c.released? with
  | none => exact .inr ⟨rfl, by simp only [Call.heldAfter, hc]⟩
  | some r =>
    refine .inl ⟨r, rfl, ?_, ?_⟩
    · cases c <;> simp [Call.released?] at hc
      rfl
    · by_cases hr : r.isReal
      · have htop := hx.releases_top r hc hr
        obtain ⟨rest, rfl⟩ : ∃ rest, held = r :: rest := List.head?_eq_some_iff.mp htop
        exact .inl ⟨hr, by simp [Call.heldAfter, hc, hr]⟩
      · exact .inr ⟨by simpa using hr, by simp [Call.heldAfter, hc, hr]⟩

/-- **Conservation.** What is held or handed out is released or still held. -/
theorem Stacked.count (h : Stacked held t now) {r : Resource} (hr : r.isReal) :
    (handedOut t).count r + held.count r = (releases t).count r + now.count r := by
  induction t generalizing held with
  | nil =>
    obtain rfl : held = now := h
    simp [handedOut, releases]
  | cons x t ih =>
    have ih := ih h.2
    rw [handedOut_cons, releases_cons, List.count_append, List.count_append]
    rcases heldAfter_cases h.1 with ⟨s, hs, hout, hstack⟩ | ⟨hs, hafter⟩
    · rw [hs, hout]
      rcases hstack with ⟨_, hheld⟩ | ⟨hunreal, hafter⟩
      · rw [hheld, List.count_cons]
        simp only [List.count_nil, Option.toList_some, List.count_singleton]
        omega
      · rw [hafter] at ih
        have hne : s ≠ r := by
          rintro rfl
          simp [hr] at hunreal
        simp only [List.count_nil, Option.toList_some, List.count_singleton, beq_iff_eq, hne]
        simp only [if_false]
        omega
    · rw [hafter, List.count_append] at ih
      simp only [hs, Option.toList_none, List.count_nil]
      omega

/-! ## Fresh handles -/

/-- With nothing held at first, a fresh handle is held at most once. -/
theorem Stacked.count_held_le_one (h : Stacked [] t now) (fresh : Fresh t) {r : Resource}
    (hr : r.hasHandle) : (releases t).count r + now.count r ≤ 1 := by
  have hcount := h.count (r.isReal_of_hasHandle hr)
  have hone := fresh.count_le_one hr
  simp only [List.count_nil] at hcount
  omega

/-- A part of a trace hands out no handle twice either. -/
theorem Fresh.left {a b : List Exchange} (h : Fresh (a ++ b)) : Fresh a := by
  unfold Fresh at h ⊢
  rw [handedOut_append, List.filter_append] at h
  exact (List.nodup_append.mp h).1

/-- Nothing that was released is handed to a call. -/
theorem Stacked.unused_after_release {before after : List Exchange} {x : Exchange}
    (h : Stacked [] (before ++ x :: after) now) (fresh : Fresh (before ++ x :: after))
    {r : Resource} (hr : r.hasHandle) (harg : r ∈ x.1.arguments) : r ∉ releases before := by
  obtain ⟨mid, hbefore, hx, _⟩ := stacked_append.mp h
  have hheld : 0 < mid.count r := List.count_pos_iff.mpr (hx.arguments_held r harg hr)
  have hone := hbefore.count_held_le_one fresh.left hr
  intro hrel
  have := List.count_pos_iff.mpr hrel
  omega

/-- What is released was handed out before. -/
theorem Stacked.handed_out_before_release {before after : List Exchange} {r : Resource}
    {done : Unit} (h : Stacked [] (before ++ ⟨.release r, done⟩ :: after) now)
    (hr : r.hasHandle) : r ∈ handedOut before := by
  obtain ⟨mid, hbefore, hx, _⟩ := stacked_append.mp h
  have hmem : r ∈ mid := hx.arguments_held r (by simp [Call.arguments]) hr
  have hcount := hbefore.count (r.isReal_of_hasHandle hr)
  have := List.count_pos_iff.mpr hmem
  simp only [List.count_nil] at hcount
  exact List.count_pos_iff.mp (by omega)

/-! ## Owners -/

/-- As long as it is not released, what lies above something stays above it. -/
theorem Stacked.above (h : Stacked held t now) {child owner : Resource}
    (habove : [child, owner].Sublist held) (hkept : child ∉ releases t) :
    [child, owner].Sublist now := by
  induction t generalizing held with
  | nil =>
    obtain rfl : held = now := h
    exact habove
  | cons x t ih =>
    rw [releases_cons, List.mem_append, not_or] at hkept
    refine ih h.2 ?_ hkept.2
    rcases heldAfter_cases h.1 with ⟨s, hs, _, hstack⟩ | ⟨_, hafter⟩
    · rcases hstack with ⟨_, hheld⟩ | ⟨_, hafter⟩
      · rw [hheld] at habove
        have hne : child ≠ s := by
          rintro rfl
          simp [hs] at hkept
        rcases List.sublist_cons_iff.mp habove with hrest | ⟨_, heq, _⟩
        · exact hrest
        · exact absurd (List.cons.inj heq).1 hne
      · rwa [hafter]
    · rw [hafter]
      exact habove.trans (List.sublist_append_right _ _)

/-- What a call hands out lies above what the call is handed. -/
theorem sublist_heldAfter {x : Exchange} {child owner : Resource} (hx : x.1.Permitted held)
    (hchild : child ∈ x.1.handedOut x.2) (howner : owner ∈ x.1.arguments)
    (handle : owner.hasHandle) : [child, owner].Sublist (x.1.heldAfter x.2 held) := by
  rcases heldAfter_cases hx with ⟨_, _, hout, _⟩ | ⟨_, hafter⟩
  · simp [hout] at hchild
  · rw [hafter]
    exact (List.singleton_sublist.mpr hchild).append
      (List.singleton_sublist.mpr (hx.arguments_held owner howner handle))

/-- What belongs to something is released before it. -/
theorem Stacked.owner_released_last {before after : List Exchange} {child owner : Resource}
    {done : Unit} (h : Stacked [] (before ++ ⟨.release owner, done⟩ :: after) now)
    (fresh : Fresh (before ++ ⟨.release owner, done⟩ :: after)) (ho : owner.hasHandle)
    (belongs : Belongs (before ++ ⟨.release owner, done⟩ :: after) child owner) :
    child ∈ releases before := by
  obtain ⟨x, hx, hchild, howner⟩ := belongs
  rcases List.mem_append.mp hx with hx | hx
  · by_contra hkept
    obtain ⟨first, second, rfl⟩ := List.append_of_mem hx
    have hparts := h
    rw [List.append_assoc] at hparts
    obtain ⟨mid, hfirst, hpermitted, hrest⟩ := stacked_append.mp hparts
    obtain ⟨top, hsecond, hrelease, _⟩ := stacked_append.mp hrest
    have habove : [child, owner].Sublist top := by
      refine hsecond.above (sublist_heldAfter hpermitted hchild howner ho) ?_
      intro hmem
      exact hkept (by simp [hmem])
    obtain ⟨rest, rfl⟩ : ∃ rest, top = owner :: rest :=
      List.head?_eq_some_iff.mp (hrelease.releases_top owner rfl (owner.isReal_of_hasHandle ho))
    -- The owner is below the child and on top, so it is held twice, unless they are the same.
    have hstack : Stacked [] (first ++ x :: second) (owner :: rest) :=
      stacked_append.mpr ⟨mid, hfirst, hpermitted, hsecond⟩
    have hone := hstack.count_held_le_one fresh.left ho
    rw [List.count_cons_self] at hone
    have hnot : owner ∉ rest := by
      rw [← List.count_pos_iff]
      omega
    rcases List.sublist_cons_iff.mp habove with hbelow | ⟨_, heq, hbelow⟩
    · exact hnot (hbelow.subset (by simp))
    · rw [← (List.cons.inj heq).2] at hbelow
      exact hnot (hbelow.subset (by simp))
  · rcases List.mem_cons.mp hx with rfl | hx
    · simp [handedOut_release] at hchild
    · obtain ⟨first, second, rfl⟩ := List.append_of_mem hx
      have hsplit : before ++ ⟨.release owner, done⟩ :: (first ++ x :: second) =
          (before ++ ⟨.release owner, done⟩ :: first) ++ x :: second := by simp
      rw [hsplit] at h fresh
      have hno := h.unused_after_release fresh ho howner
      simp [Call.released?] at hno

/-! ## The ledger of a stacked trace -/

/-- **Safety.** With nothing held at first, a stacked trace is guarded. -/
theorem Stacked.guarded (h : Stacked [] t now) (fresh : Fresh t) : Guarded t where
  unused_after_release := by
    rintro before x after rfl r harg hr
    exact h.unused_after_release fresh hr harg
  handed_out_before_release := by
    rintro before r done after rfl hr
    exact h.handed_out_before_release hr
  owner_released_last := by
    rintro before owner done after rfl child ho belongs
    exact h.owner_released_last fresh ho belongs

/-- **Release.** If nothing is held at first nor in the end, a stacked trace is settled. -/
theorem Stacked.settled (h : Stacked [] t []) (fresh : Fresh t) : Settled t where
  released_once := by
    intro r hr handle
    have hcount := h.count (r.isReal_of_hasHandle handle)
    have hone := fresh.count_le_one handle
    have := List.count_pos_iff.mpr hr
    simp only [List.count_nil] at hcount
    omega
  blanks_released := by
    have hcount := h.count (r := .string none) rfl
    simpa using hcount.symm

end Trace

end ClangLens
