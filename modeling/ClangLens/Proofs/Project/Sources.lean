import ClangLens.Proofs.Project.Filtering

/-!
# Sources among the arguments

An entry is found by what a path means, but its source is left out of the arguments by its text. So
an argument that means the source stays where it is spelled in a third way, neither as the file of
the entry nor as that file behind the directory.
-/

namespace ClangLens

namespace DatabaseEntry

variable {e : DatabaseEntry} {a : String}

/-- An argument that means the source when it is seen from the directory. -/
def IsSource (e : DatabaseEntry) (a : String) : Prop :=
  (e.directory.join (.ofString a)).same (e.directory.join e.file)

instance (e : DatabaseEntry) (a : String) : Decidable (e.IsSource a) :=
  inferInstanceAs (Decidable (_ = true))

/-- An argument that is recognised by its text. -/
def IsKnown (e : DatabaseEntry) (a : String) : Prop := a ∈ "-c" :: "-o" :: e.sourceTexts

instance (e : DatabaseEntry) (a : String) : Decidable (e.IsKnown a) :=
  inferInstanceAs (Decidable (_ ∈ _))

/-- Sources stay where they are no operand and are not recognised. -/
theorem mem_kept_source :
    a ∈ kept e.sourceTexts e.arguments.tail ∧ e.IsSource a ↔
      e.IsSource a ∧ ∃ i, e.arguments.tail[i]? = some a ∧ ¬ IsOperand e.arguments.tail i ∧
        ¬ e.IsKnown a := by
  rw [mem_kept_iff, and_comm]
  refine and_congr_right fun _ => exists_congr fun i => and_congr_right fun hi => ?_
  rw [IsDropped, hi, IsKnown]
  by_cases hoperand : IsOperand e.arguments.tail i <;> simp [hoperand]

end DatabaseEntry

namespace Database

open DatabaseEntry

/-- **Sources.** Of the arguments for a path behind the directory, those that mean the source are
the ones that are no operand and are not recognised by their text. So none does exactly if every
argument of the entry that means the source is an operand or is recognised. -/
theorem source_stays_iff_unknown (db : Database) (p : Path) (front : List DatabaseEntry)
    (e : DatabaseEntry) (back : List DatabaseEntry) (h : db.FirstFor p front e back)
    (hsome : e.arguments ≠ []) :
    ∃ rest, db.argumentsFor p = some (("-working-directory=" ++ e.directory.text) :: rest) ∧
      (∀ a, a ∈ rest ∧ e.IsSource a ↔ e.IsSource a ∧ ∃ i, e.arguments.tail[i]? = some a ∧
        ¬ IsOperand e.arguments.tail i ∧ ¬ e.IsKnown a) ∧
      ((∀ a ∈ rest, ¬ e.IsSource a) ↔ ∀ i a, e.arguments.tail[i]? = some a → e.IsSource a →
        IsOperand e.arguments.tail i ∨ e.IsKnown a) := by
  refine ⟨kept e.sourceTexts e.arguments.tail, ?_, fun a => mem_kept_source, ?_, ?_⟩
  · rw [h.argumentsFor, parseArguments_eq hsome]
  · intro hnone i a hi hsource
    by_cases hoperand : IsOperand e.arguments.tail i
    · exact .inl hoperand
    by_cases hknown : e.IsKnown a
    · exact .inr hknown
    · obtain ⟨hmem, -⟩ := mem_kept_source.mpr ⟨hsource, i, hi, hoperand, hknown⟩
      exact absurd hsource (hnone a hmem)
  · intro hall a hmem hsource
    obtain ⟨-, i, hi, hoperand, hknown⟩ := mem_kept_source.mp ⟨hmem, hsource⟩
    rcases hall i a hi hsource with h | h
    · exact hoperand h
    · exact hknown h

/-- An entry that names its file from the root, and in its command seen from the directory. -/
def shortened : Database :=
  ⟨⟨[]⟩, [⟨.ofString "/p", .ofString "/p/a.c", ["cc", "-c", "a.c"], none⟩]⟩

theorem shortened_firstFor :
    shortened.FirstFor (.ofString "/p/a.c") [] (shortened.entries.head (by decide)) [] :=
  ⟨rfl, List.forall_mem_nil _, .inl (by decide)⟩

theorem shortened_source_stays :
    ∃ rest, shortened.argumentsFor (.ofString "/p/a.c") = some ("-working-directory=/p" :: rest) ∧
      "a.c" ∈ rest := by
  obtain ⟨rest, hrest, hstays, -⟩ :=
    source_stays_iff_unknown shortened (.ofString "/p/a.c") _ _ _ shortened_firstFor (by decide)
  have hsource := (hstays "a.c").mpr ⟨by decide, 1, rfl, by decide, by decide⟩
  exact ⟨rest, hrest, hsource.1⟩

/-- The source may stay among the arguments. -/
theorem not_all_sources_left_out :
    ¬ ∀ (db : Database) (p : Path) (front : List DatabaseEntry) (e : DatabaseEntry)
      (back : List DatabaseEntry) (rest : List String), db.FirstFor p front e back →
      db.argumentsFor p = some (("-working-directory=" ++ e.directory.text) :: rest) →
        ∀ a ∈ rest, ¬ e.IsSource a := by
  intro hall
  have hnone := hall shortened (.ofString "/p/a.c") [] _ [] ["a.c"] shortened_firstFor (by decide)
  exact hnone "a.c" List.mem_cons_self (by decide)

end Database

end ClangLens
