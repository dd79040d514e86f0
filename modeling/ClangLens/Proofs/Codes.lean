import ClangLens.Codes.Comment
import ClangLens.Codes.Completion
import ClangLens.Codes.Cursor
import ClangLens.Codes.Indexing
import ClangLens.Codes.Severity
import ClangLens.Codes.Status
import ClangLens.Proofs.Spelling

/-!
# Codes and numbers

A code and its number say the same in both directions, and the spelling of a code says which one it
was. All of this follows from what can be read off a table: every value has a row, no two rows
share a value, a number or a name, and neither label nor type name holds a character that ends it.
The one thing that is lost is a number of the table that was called unknown by hand.
-/

namespace ClangLens

open CodeTable

/-- No two rows of a table are alike in any column, and its two titles can be told apart. -/
structure CodeTable.Distinct (α : Type) [CodeTable α] : Prop where
  values : ((entries (α := α)).map CodeEntry.value).Nodup
  codes : ((entries (α := α)).map CodeEntry.code).Nodup
  names : ((entries (α := α)).map CodeEntry.name).Nodup
  label : '=' ∉ (label α).toList ∧ ' ' ∉ (label α).toList
  typeName : '=' ∉ (typeName α).toList ∧ ' ' ∉ (typeName α).toList

instance (α : Type) [CodeTable α] [DecidableEq α] : Decidable (Distinct α) :=
  decidable_of_iff
    (((entries (α := α)).map CodeEntry.value).Nodup ∧
      ((entries (α := α)).map CodeEntry.code).Nodup ∧
      ((entries (α := α)).map CodeEntry.name).Nodup ∧
      ('=' ∉ (label α).toList ∧ ' ' ∉ (label α).toList) ∧
      '=' ∉ (typeName α).toList ∧ ' ' ∉ (typeName α).toList)
    ⟨fun ⟨h₁, h₂, h₃, h₄, h₅⟩ => ⟨h₁, h₂, h₃, h₄, h₅⟩,
      fun h => ⟨h.values, h.codes, h.names, h.label, h.typeName⟩⟩

namespace Coded

variable {α : Type} [CodeTable α] [DecidableEq α]

/-! ## Rows -/

/-- The row of a value is the only one with that value. -/
theorem row?_value (h : Distinct α) {e : CodeEntry α} (he : e ∈ entries (α := α)) :
    row? e.value = some e := by
  unfold row?
  exact find?_key h.values he

theorem exists_row (hall : ∀ value : α, (row? value).isSome) (value : α) :
    ∃ e ∈ entries (α := α), e.value = value ∧ row? value = some e := by
  obtain ⟨e, he⟩ := Option.isSome_iff_exists.mp (hall value)
  exact ⟨e, List.mem_of_find?_eq_some he, by simpa using List.find?_some he, he⟩

omit [DecidableEq α] in
theorem ofCode_of_mem (h : Distinct α) {e : CodeEntry α} (he : e ∈ entries (α := α)) :
    ofCode e.code = .named e.value := by
  unfold ofCode
  rw [find?_key h.codes he]

omit [DecidableEq α] in
theorem ofCode_of_not_mem {n : UInt32} (hn : n ∉ (entries (α := α)).map CodeEntry.code) :
    (ofCode n : Coded α) = .unknown n := by
  have hfind : ((entries (α := α)).find? fun e => e.code = n) = none := by
    rw [List.find?_eq_none]
    intro e he hcode
    exact hn (List.mem_map.mpr ⟨e, he, by simpa using hcode⟩)
  unfold ofCode
  rw [hfind]

/-! ## There and back -/

/-- The number that a code was read from is that of the code. -/
theorem code_ofCode (h : Distinct α) (n : UInt32) : (ofCode n : Coded α).code = n := by
  by_cases hn : n ∈ (entries (α := α)).map CodeEntry.code
  · obtain ⟨e, he, rfl⟩ := List.mem_map.mp hn
    rw [ofCode_of_mem h he, code, row?_value h he]
    rfl
  · rw [ofCode_of_not_mem hn]
    rfl

omit [DecidableEq α] in
theorem isNamed_ofCode (h : Distinct α) (n : UInt32) :
    (ofCode n : Coded α).isNamed ↔ n ∈ (entries (α := α)).map CodeEntry.code := by
  by_cases hn : n ∈ (entries (α := α)).map CodeEntry.code
  · obtain ⟨e, he, rfl⟩ := List.mem_map.mp hn
    rw [ofCode_of_mem h he]
    exact iff_of_true rfl hn
  · rw [ofCode_of_not_mem hn]
    exact iff_of_false Bool.false_ne_true hn

theorem ofCode_code_named (h : Distinct α) (hall : ∀ value : α, (row? value).isSome) (value : α) :
    ofCode (named value).code = named value := by
  obtain ⟨e, he, rfl, hrow⟩ := exists_row hall value
  rw [code, hrow]
  exact ofCode_of_mem h he

/-- Only a number of the table that is called unknown does not come back. -/
theorem ofCode_code_iff (h : Distinct α) (hall : ∀ value : α, (row? value).isSome)
    (x : Coded α) : ofCode x.code = x ↔
      ¬∃ n ∈ (entries (α := α)).map CodeEntry.code, x = unknown n := by
  cases x with
  | named value =>
    refine iff_of_true (ofCode_code_named h hall value) ?_
    rintro ⟨n, -, hx⟩
    cases hx
  | unknown n =>
    constructor
    · rintro hback ⟨m, hm, hx⟩
      cases hx
      have hnamed := (isNamed_ofCode h n).mpr hm
      rw [show (ofCode n : Coded α) = unknown n from hback] at hnamed
      cases hnamed
    · intro hx
      exact ofCode_of_not_mem fun hn => hx ⟨n, hn, rfl⟩

/-! ## Spellings -/

theorem nameOf_injective (h : Distinct α) (hall : ∀ value : α, (row? value).isSome) :
    Function.Injective (nameOf : α → String) := by
  intro a b hab
  obtain ⟨e, he, rfl, hrow⟩ := exists_row hall a
  obtain ⟨e', he', rfl, hrow'⟩ := exists_row hall b
  unfold nameOf at hab
  rw [hrow, hrow'] at hab
  exact congrArg CodeEntry.value (List.inj_on_of_nodup_map h.names he he' hab)

theorem named_ne_unknown (h : Distinct α) (value : α) (n : UInt32) :
    (named value).spelling ≠ (unknown n : Coded α).spelling := by
  intro heq
  have hlist := congrArg String.toList heq
  refine Flags.separators_differ h.label h.typeName (x := (nameOf value).toList)
    (y := "unknown ".toList ++ (toString n.toNat).toList) ?_
  simpa [spelling] using hlist

theorem spelling_injective (h : Distinct α) (hall : ∀ value : α, (row? value).isSome) :
    Function.Injective (spelling : Coded α → String) := by
  intro x y hxy
  cases x with
  | named a =>
    cases y with
    | named b =>
      have hname := (String.append_right_inj _).mp hxy
      rw [nameOf_injective h hall hname]
    | unknown n => exact absurd hxy (named_ne_unknown h a n)
  | unknown m =>
    cases y with
    | named b => exact absurd hxy.symm (named_ne_unknown h b m)
    | unknown n =>
      have hdigits : toString m.toNat = toString n.toNat := (String.append_right_inj _).mp hxy
      have hnumber : m.toNat = n.toNat := by
        rw [← ofDigitChars_toString m.toNat, hdigits, ofDigitChars_toString]
      rw [UInt32.toNat_inj.mp hnumber]

/-! ## All tables -/

/-- Codes that say the same as their numbers, and whose spellings say which code it was. -/
structure Faithful (α : Type) [CodeTable α] [DecidableEq α] : Prop where
  code_ofCode : ∀ n : UInt32, (ofCode n : Coded α).code = n
  isNamed_ofCode : ∀ n : UInt32,
    (ofCode n : Coded α).isNamed ↔ n ∈ (entries (α := α)).map CodeEntry.code
  ofCode_code : ∀ x : Coded α, ofCode x.code = x ↔
    ¬∃ n ∈ (entries (α := α)).map CodeEntry.code, x = unknown n
  spelling : Function.Injective (spelling : Coded α → String)
  spelling_ofCode : Function.Injective fun n => (ofCode n : Coded α).spelling

theorem faithful (hall : ∀ value : α, (row? value).isSome) (h : Distinct α) : Faithful α where
  code_ofCode := code_ofCode h
  isNamed_ofCode := isNamed_ofCode h
  ofCode_code := ofCode_code_iff h hall
  spelling := spelling_injective h hall
  spelling_ofCode := by
    intro m n hmn
    have hcode := congrArg code (spelling_injective h hall hmn)
    rwa [code_ofCode h, code_ofCode h] at hcode

theorem cursorKind_distinct : Distinct CursorKind := by decide +kernel

/-- **Codes.** Reading a number and writing a code are inverse to each other as far as they can be,
and no two codes are spelled alike, for every type of code. -/
theorem codes_faithful :
    Faithful CursorKind ∧ Faithful Severity ∧ Faithful ChunkKind ∧ Faithful Availability ∧
      Faithful Status ∧ Faithful SaveStatus ∧ Faithful ReferenceKind ∧ Faithful EntityKind ∧
      Faithful CommentKind ∧ Faithful RenderKind ∧ Faithful ChildVisit :=
  ⟨faithful (fun value => by cases value <;> rfl) cursorKind_distinct,
    faithful (fun value => by cases value <;> rfl) (by decide +kernel),
    faithful (fun value => by cases value <;> rfl) (by decide +kernel),
    faithful (fun value => by cases value <;> rfl) (by decide +kernel),
    faithful (fun value => by cases value <;> rfl) (by decide +kernel),
    faithful (fun value => by cases value <;> rfl) (by decide +kernel),
    faithful (fun value => by cases value <;> rfl) (by decide +kernel),
    faithful (fun value => by cases value <;> rfl) (by decide +kernel),
    faithful (fun value => by cases value <;> rfl) (by decide +kernel),
    faithful (fun value => by cases value <;> rfl) (by decide +kernel),
    faithful (fun value => by cases value <;> rfl) (by decide +kernel)⟩

end Coded

end ClangLens
