import ClangLens.Proofs.Handover
import ClangLens.Proofs.Opening
import ClangLens.Script.Library

/-!
# Results that are counted and results that are seen

A set of completion results has a count and an array that may be null. What is seen is what is in
the array. But an index is checked against the count, and whether there is anything to put in order
is decided by the count too. The two say the same unless a set counts results and has no array: then
none is seen, an index is let through though there is nothing at it, and the library is asked to put
a null array in order.
-/

namespace ClangLens

open Dialogue

/-! ## Arrays -/

namespace CompletionArray

/-- Counts results that are not seen. -/
structure Hidden (a : CompletionArray) : Prop where
  null : a.results = none
  counted : a.count ≠ 0

variable {a : CompletionArray}

theorem not_hidden_iff : ¬a.Hidden ↔ a.results.isSome ∨ a.count = 0 := by
  constructor
  · intro h
    cases hresults : a.results with
    | some results => exact .inl rfl
    | none => exact .inr (Decidable.byContradiction fun hcounted => h ⟨hresults, hcounted⟩)
  · rintro (hsome | hzero) h
    · simp [h.null] at hsome
    · exact h.counted hzero

/-- All results are seen, or none. -/
theorem length_toList : a.toList.length = if a.results.isSome then a.count.toNat else 0 := by
  unfold toList
  split
  next h => simp [h]
  next h => simp [h]

theorem length_toList_eq_iff : a.toList.length = a.count.toNat ↔ ¬a.Hidden := by
  rw [length_toList, not_hidden_iff]
  split
  next hsome => simp [hsome]
  next hnone => simp [hnone, ← UInt32.toNat_inj, eq_comm]

/-- Where results are hidden, already the first index is that of none of those that are seen. -/
theorem forall_lt_length_iff :
    (∀ i : UInt32, i < a.count → i.toNat < a.toList.length) ↔ ¬a.Hidden := by
  constructor
  · intro h hidden
    have hzero : 0 < a.count := UInt32.pos_iff_ne_zero.mpr hidden.counted
    have hseen := h 0 hzero
    simp [length_toList, hidden.null] at hseen
  · intro h i hi
    rw [length_toList_eq_iff.mpr h]
    exact UInt32.lt_iff_toNat_lt.mp hi

end CompletionArray

/-! ## Sets -/

/-- The call that puts the results of no array in order. -/
def Call.SortsNull (c : Call) : Prop := ∃ n : UInt32, n ≠ 0 ∧ c = .sortResults none n

namespace Completions

variable {L : Type} (library : Library L) (l : L) (s : Completions)

/-- The array of a set as it is found. -/
def array : CompletionArray := (library (.results s) l).1

/-- An index is let through: the library is asked about what is at it. -/
def Accepts (i : UInt32) (calls : List Exchange) : Prop :=
  ∃ x ∈ calls, x.1 = .number (.completionFixIts s i)

theorem results_run : (s.results.run library l).1 = some (s.array library l).toList := rfl

theorem numResults_run : (s.numResults.run library l).1 = some (s.array library l).count := rfl

/-- Whatever is done with the number of fix-its, the count decides whether it is asked for. -/
theorem accepts_bind_iff {α : Type} {k : UInt32 → Dialogue α} {i : UInt32}
    (h : ∀ l, ¬s.Accepts i ((k 0).trace library l)) :
    s.Accepts i (((s.numFixIts i).bind k).trace library l) ↔ i < (s.array library l).count := by
  change s.Accepts i (⟨.results s, s.array library l⟩ ::
    ((if i < (s.array library l).count then askNumber (.completionFixIts s i)
      else .done 0 : Dialogue UInt32).bind k).trace library (library (.results s) l).2) ↔ _
  have hasked : Call.results s ≠ .number (.completionFixIts s i) := by
    intro heq
    cases heq
  split
  next hlt =>
    exact iff_of_true ⟨⟨.number (.completionFixIts s i), _⟩, .tail _ (.head _), rfl⟩ hlt
  next hlt =>
    refine iff_of_false ?_ hlt
    rintro ⟨x, hx, heq⟩
    obtain rfl | hx := List.mem_cons.mp hx
    · exact hasked heq
    · exact h _ ⟨x, hx, heq⟩

theorem accepts_numFixIts_iff (i : UInt32) :
    s.Accepts i ((s.numFixIts i).trace library l) ↔ i < (s.array library l).count := by
  rw [← (s.numFixIts i).bind_done]
  exact s.accepts_bind_iff library l (by simp [Accepts])

theorem accepts_fixIt?_iff (i j : UInt32) :
    s.Accepts i ((s.fixIt? i j).trace library l) ↔ i < (s.array library l).count :=
  s.accepts_bind_iff library l (by simp [Accepts])

theorem sort_trace : s.sort.trace library l =
    ⟨.results s, s.array library l⟩ :: s.sorting (s.array library l) := by
  change _ :: (if 0 < (s.array library l).count then _ else _ : Dialogue Unit).trace library
    (library (.results s) l).2 = _
  unfold sorting
  split
  · rfl
  · rfl

/-- A set that counts results is put in order even if it has no array. -/
theorem sorting_null_iff {a : CompletionArray} :
    (∃ x ∈ s.sorting a, x.1.SortsNull) ↔ a.Hidden := by
  constructor
  · rintro ⟨x, hx, n, hn, hcall⟩
    unfold sorting at hx
    split at hx
    next hcount =>
      obtain rfl := List.mem_singleton.mp hx
      obtain ⟨harray, rfl⟩ := Call.sortResults.inj hcall
      refine ⟨?_, hn⟩
      simpa using harray
    next hcount => cases hx
  · rintro ⟨hnull, hcounted⟩
    refine ⟨⟨.sortResults none a.count, ()⟩, ?_, a.count, hcounted, rfl⟩
    rw [sorting, if_pos (UInt32.pos_iff_ne_zero.mpr hcounted), hnull]
    exact List.mem_singleton_self _

theorem sort_null_iff :
    (∃ x ∈ s.sort.trace library l, x.1.SortsNull) ↔ (s.array library l).Hidden := by
  have hasked : ¬(Call.results s).SortsNull := by
    rintro ⟨n, -, hcall⟩
    cases hcall
  rw [sort_trace, ← s.sorting_null_iff]
  simp [hasked]

end Completions

namespace TranslationUnit

variable {u : TranslationUnit} {r : CompleteRequest} {calls : List Exchange}
  {completed : Except Failure Completions}

theorem complete_yields (u : TranslationUnit) (r : CompleteRequest) :
    (u.complete r).Yields fun _ => True := by
  unfold complete
  cases CompleteCall.ofRequest r with
  | error failure => exact yields_pure trivial
  | ok c =>
    refine (yields_ask _).bind fun answer _ => ?_
    cases answer with
    | none => exact yields_pure trivial
    | some set =>
      dsimp only
      split
      · exact set.sort_yields.bind fun _ _ => yields_pure trivial
      · exact yields_pure trivial

theorem Completing.null_iff (h : u.Completing r calls completed) :
    (∃ x ∈ calls, x.1.SortsNull) ↔
      ∃ set a, (⟨.results set, a⟩ : Exchange) ∈ calls ∧ a.Hidden := by
  cases h with
  | refused => simp
  | failed | unsorted => simp [Call.SortsNull]
  | @sorted c set counted =>
    have hsorting : ∀ set' a, (⟨.results set', a⟩ : Exchange) ∉ set.sorting counted := by
      intro set' a
      unfold Completions.sorting
      split <;> simp
    simpa [Call.SortsNull, hsorting] using set.sorting_null_iff

end TranslationUnit

/-- **Counted and seen.** As many results are seen as are counted, no index is let through but that
of a result that is seen, and no null array is put in order together with a count: each of these
holds of a set exactly if it does not count results without an array. -/
theorem Completions.counted_are_seen_iff {L : Type} (library : Library L) (l : L) :
    (∀ s : Completions, ((∀ seen n, (s.results.run library l).1 = some seen →
          (s.numResults.run library l).1 = some n → seen.length = n.toNat) ↔
        ¬(s.array library l).Hidden) ∧
      ((∀ i, s.Accepts i ((s.numFixIts i).trace library l) →
          i.toNat < (s.array library l).toList.length) ↔ ¬(s.array library l).Hidden) ∧
      ((∀ i j, s.Accepts i ((s.fixIt? i j).trace library l) →
          i.toNat < (s.array library l).toList.length) ↔ ¬(s.array library l).Hidden) ∧
      ((∀ x ∈ s.sort.trace library l, ¬x.1.SortsNull) ↔ ¬(s.array library l).Hidden)) ∧
    ∀ (u : TranslationUnit) (r : CompleteRequest),
      (∀ x ∈ (u.complete r).trace library l, ¬x.1.SortsNull) ↔
        ∀ set a, (⟨.results set, a⟩ : Exchange) ∈ (u.complete r).trace library l → ¬a.Hidden := by
  refine ⟨fun s => ⟨?_, ?_, ?_, ?_⟩, fun u r => ?_⟩
  · rw [s.results_run, s.numResults_run, ← CompletionArray.length_toList_eq_iff]
    simp
  · simp only [accepts_numFixIts_iff, CompletionArray.forall_lt_length_iff]
  · simp only [accepts_fixIt?_iff, forall_const, CompletionArray.forall_lt_length_iff]
  · rw [← s.sort_null_iff]
    simp only [not_exists, not_and]
  · obtain ⟨completed, l', hrun, -⟩ := (u.complete_yields r).exists_run library l
    have hnull := (TranslationUnit.complete_reaches (reaches_of_run hrun)).null_iff
    simpa only [not_exists, not_and] using not_congr hnull

/-- A set of one result, and its array. -/
def singleScript : Script where
  completion := some { results := [⟨1, none⟩] }

theorem single_seen : ∀ i, (⟨0⟩ : Completions).Accepts i
      (((⟨0⟩ : Completions).numFixIts i).trace singleScript.library {}) →
    i.toNat < ((⟨0⟩ : Completions).array singleScript.library {}).toList.length := by
  have hset := (Completions.counted_are_seen_iff singleScript.library {}).1 ⟨0⟩
  refine hset.2.1.mpr fun hidden => ?_
  exact absurd hidden.null (by decide)

/-- A library whose sets count two results and have no array of them. -/
def unseenLibrary : Library Script.Memory := fun c m =>
  match c with
  | .results _ => (⟨2, none⟩, m)
  | c => singleScript.library c m

/-- There two are counted and none is seen, the first two indices are let through, and a null array
is put in order, also where a file is completed. -/
theorem not_all_counted_seen :
    ((⟨0⟩ : Completions).results.run unseenLibrary {}).1 = some [] ∧
      ((⟨0⟩ : Completions).numResults.run unseenLibrary {}).1 = some 2 ∧
      ¬(∀ i, (⟨0⟩ : Completions).Accepts i
          (((⟨0⟩ : Completions).numFixIts i).trace unseenLibrary {}) →
        i.toNat < ((⟨0⟩ : Completions).array unseenLibrary {}).toList.length) ∧
      ¬(∀ x ∈ (⟨0⟩ : Completions).sort.trace unseenLibrary {}, ¬x.1.SortsNull) ∧
      ¬(∀ x ∈ ((⟨0⟩ : TranslationUnit).complete
          ⟨.ofString "a.c", 1, 1, CompleteRequest.defaultFlags, [], true⟩).trace unseenLibrary {},
        ¬x.1.SortsNull) := by
  have hsorted : (⟨.sortResults none 2, ()⟩ : Exchange).1.SortsNull := ⟨2, by decide, rfl⟩
  refine ⟨rfl, rfl, fun h => ?_, fun h => ?_, fun h => ?_⟩
  · exact absurd (h 1 ⟨_, .tail _ (.head _), rfl⟩) (by decide)
  · exact h _ (.tail _ (.head _)) hsorted
  · exact h _ (.tail _ (.tail _ (.head _))) hsorted

end ClangLens
