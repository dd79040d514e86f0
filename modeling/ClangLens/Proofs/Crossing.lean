import Mathlib.Data.List.TakeWhile
import ClangLens.Proofs.Delivery
import ClangLens.Proofs.Replacing

/-!
# Texts there and back

A text goes to the library as its bytes, unless it holds a NUL, and comes back from the bytes that
the library holds, up to the first NUL. Coming back gives just the text that went, whichever way it
is taken. The library may also hold bytes of its own: whatever they are, what they are read as can
go again and comes back as it is.
-/

namespace ClangLens

open Dialogue Utf8
open Request (nul hasNul)

/-! ## What the library holds -/

/-- What can be seen of a text that the library holds: the bytes in front of the first NUL, which may
only lie behind those that are given, and nothing if there is no text. -/
inductive Seen : Option Bytes → Bytes → Prop where
  | missing : Seen none []
  | ended {before : Bytes} (h : 0 ∉ before) (behind : Bytes) :
      Seen (some (before ++ 0 :: behind)) before
  | whole {bytes : Bytes} (h : 0 ∉ bytes) : Seen (some bytes) bytes

theorem exists_seen (held : Option Bytes) : ∃ bytes, Seen held bytes := by
  cases held with
  | none => exact ⟨[], .missing⟩
  | some bytes =>
    by_cases h : 0 ∈ bytes
    · obtain ⟨before, behind, rfl, hbefore⟩ := List.eq_append_cons_of_mem h
      exact ⟨before, .ended hbefore behind⟩
    · exact ⟨bytes, .whole h⟩

theorem Seen.zero_not_mem {held : Option Bytes} {bytes : Bytes} (h : Seen held bytes) :
    0 ∉ bytes := by
  cases h with
  | missing => exact List.not_mem_nil
  | ended h => exact h
  | whole h => exact h

theorem Seen.read_eq {held : Option Bytes} {bytes : Bytes} (h : Seen held bytes) :
    ForeignString.read held = lossy bytes := by
  cases h with
  | missing => rfl
  | ended h behind => rw [ForeignString.read, takeWhile_ne h]
  | whole h => rw [ForeignString.read, takeWhile_ne_eq_self h]

/-- Nothing is read only where nothing can be seen. -/
theorem read_eq_empty_iff {held : Option Bytes} : ForeignString.read held = "" ↔ Seen held [] := by
  constructor
  · intro hread
    obtain ⟨bytes, h⟩ := exists_seen held
    rw [h.read_eq, lossy_eq_empty_iff] at hread
    rwa [hread] at h
  · exact fun h => h.read_eq

/-! ## Taking a text -/

section

variable {L : Type} (library : Library L)

/-- The bytes behind the answer to a question for a text. -/
def heldBehind (l : L) (q : TextQuestion) : Option Bytes :=
  (library (.stringBytes (library (.text q) l).1) (library (.text q) l).2).1

/-- What the library holds is taken as a text in every way there is, and is given back. -/
structure TakenAs (held : Option Bytes) (s : String) : Prop where
  taken : ∀ l f, (library (.stringBytes f) l).1 = held →
    ((takeString f).run library l).1 = some s ∧
      (takeString f).trace library l = [⟨.stringBytes f, held⟩, ⟨.release (.string f), ()⟩]
  asked : ∀ l q, heldBehind library l q = held → ((askText q).run library l).1 = some s
  /-- Where an empty text means that there is none. -/
  askedIfAny : ∀ l q, heldBehind library l q = held →
    ((askText? q).run library l).1 = some (if s = "" then none else some s)
  /-- Where the text stays with the library. -/
  borrowed : ForeignString.borrowed held = if s = "" then none else some s

variable {library}

theorem takenAs_read (held : Option Bytes) : TakenAs library held (ForeignString.read held) where
  taken := by
    rintro l f rfl
    exact ⟨rfl, rfl⟩
  asked := by
    rintro l q rfl
    rfl
  askedIfAny := by
    rintro l q rfl
    rfl
  borrowed := rfl

theorem Seen.takenAs {held : Option Bytes} {bytes : Bytes} (h : Seen held bytes) :
    TakenAs library held (lossy bytes) := by
  rw [← h.read_eq]
  exact takenAs_read held

/-! ## Handing a text over -/

/-- A text is refused for its first NUL, and the failure says at which byte that is. -/
structure RefusedAt (s : String) (failure : Failure) (position : Nat) : Prop where
  first : ∃ before behind, encode s = before ++ 0 :: behind ∧ 0 ∉ before ∧
    before.length = position
  failure_eq : failure = .interiorNul (encode s)
  position_eq : Failure.nulPosition (encode s) = position
  told : failure.message = "Argument contains an interior NUL byte: "
    ++ ("nul byte found in provided data at position: " ++ toString position)

theorem refusedAt_of_nul {s : String} (h : nul ∈ s.toList) :
    ∃ position, RefusedAt s (.interiorNul (encode s)) position := by
  have hzero : 0 ∈ encode s := (zero_mem_encode s).mpr (List.contains_iff_mem.mpr h)
  obtain ⟨before, behind, hbytes, hfirst⟩ := List.eq_append_cons_of_mem hzero
  have hposition : Failure.nulPosition (encode s) = before.length := by
    rw [Failure.nulPosition, hbytes, takeWhile_ne hfirst]
  refine ⟨before.length, { first := ?_, failure_eq := ?_, position_eq := ?_, told := ?_ }⟩
  · exact ⟨before, behind, hbytes, hfirst, rfl⟩
  · rfl
  · exact hposition
  · rw [← hposition]
    rfl

/-- What is handed over is what is written, and a NUL is all that is refused. -/
theorem ofString_cases (s : String) :
    (nul ∈ s.toList ∧ ForeignText.ofString s = .error (.interiorNul (encode s))) ∨
      nul ∉ s.toList ∧ ∃ t, ForeignText.ofString s = .ok t ∧ t.bytes = encode s := by
  have hnul : 0 ∈ encode s ↔ nul ∈ s.toList := by
    rw [zero_mem_encode, hasNul, List.contains_iff_mem]
  by_cases h : 0 ∈ encode s
  · exact .inl ⟨hnul.mp h, dif_pos h⟩
  · exact .inr ⟨fun hmem => h (hnul.mpr hmem), ⟨encode s, h⟩, dif_neg h, rfl⟩

variable (library) in
/-- What becomes of a text that is handed over and taken back. -/
structure GoesAndComes (s : String) : Prop where
  refused_iff : (∃ failure, ForeignText.ofString s = .error failure) ↔ nul ∈ s.toList
  refused : ∀ failure, ForeignText.ofString s = .error failure →
    ∃ position, RefusedAt s failure position
  /-- Whatever lies in memory behind the NUL that ends it. -/
  back : ∀ t, ForeignText.ofString s = .ok t →
    ∀ behind, TakenAs library (some (t.bytes ++ 0 :: behind)) s

theorem goesAndComes (s : String) : GoesAndComes library s := by
  obtain ⟨hnul, herror⟩ | ⟨hnul, t, hok, hbytes⟩ := ofString_cases s
  · refine ⟨⟨fun _ => hnul, fun _ => ⟨_, herror⟩⟩, fun failure h => ?_, fun t h => ?_⟩
    · obtain rfl := Except.error.inj (herror.symm.trans h)
      exact refusedAt_of_nul hnul
    · cases herror.symm.trans h
  · refine ⟨⟨fun ⟨_, h⟩ => ?_, fun h => absurd h hnul⟩, fun failure h => ?_, fun t' h behind => ?_⟩
    · cases hok.symm.trans h
    · cases hok.symm.trans h
    · obtain rfl := Except.ok.inj (hok.symm.trans h)
      have hback : lossy t.bytes = s := by
        rw [hbytes]
        exact lossy_encode s
      rw [← hback]
      exact (Seen.ended t.nul_not_mem behind).takenAs

/-- **Crossing.** A text is refused exactly if it holds a NUL, and otherwise comes back as it went.
Whatever the library holds, what can be seen of it is read with stray bytes replaced, and what is
read goes over and comes back unchanged. -/
theorem texts_cross (library : Library L) :
    (∀ s, GoesAndComes library s) ∧
      ∀ held, ∃ bytes s, Seen held bytes ∧ ReadsAs bytes s.toList ∧ TakenAs library held s ∧
        nul ∉ s.toList ∧ ∃ t, ForeignText.ofString s = .ok t ∧
          ∀ behind, TakenAs library (some (t.bytes ++ 0 :: behind)) s := by
  refine ⟨goesAndComes, fun held => ?_⟩
  obtain ⟨bytes, hseen⟩ := exists_seen held
  have hreads : ReadsAs bytes (lossy bytes).toList := readsAs_iff.mpr rfl
  have hnul : nul ∉ (lossy bytes).toList := hreads.nul_not_mem hseen.zero_not_mem
  obtain ⟨hmem, -⟩ | ⟨-, t, hok, -⟩ := ofString_cases (lossy bytes)
  · exact absurd hmem hnul
  · exact ⟨bytes, lossy bytes, hseen, hreads, hseen.takenAs, hnul, t, hok,
      (goesAndComes (lossy bytes)).back t hok⟩

end

/-- A library that calls itself by bytes of which one begins no character and one ends the text. -/
def strayScript : Script where
  version := some [97, 255, 98, 0, 99]

theorem stray_version_taken :
    ((askText? .version).run strayScript.library {}).1 = some (some "a\uFFFDb") ∧
      ∃ t, ForeignText.ofString "a\uFFFDb" = .ok t ∧
        TakenAs strayScript.library (some (t.bytes ++ [0, 99])) "a\uFFFDb" := by
  obtain ⟨bytes, s, -, -, htaken, -, t, ht, hback⟩ :=
    (texts_cross strayScript.library).2 (some [97, 255, 98, 0, 99])
  have hborrowed : ForeignString.borrowed (some [97, 255, 98, 0, 99]) = some "a\uFFFDb" := by
    decide +kernel
  rw [htaken.borrowed] at hborrowed
  have hs : s ≠ "" := by
    rintro rfl
    cases hborrowed
  rw [if_neg hs] at hborrowed
  obtain rfl := Option.some.inj hborrowed
  have hheld : heldBehind strayScript.library {} .version = some [97, 255, 98, 0, 99] := by
    decide +kernel
  exact ⟨htaken.askedIfAny {} .version hheld, t, ht, hback [99]⟩

end ClangLens
