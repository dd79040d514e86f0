import ClangLens.Proofs.Replacing
import ClangLens.Proofs.Reports.Showing
import ClangLens.Proofs.Reports.SpanTexts

/-!
# Lines of a text

A text is cut at its line feeds. Where it is put together from lines that hold none, each with a
line feed behind it, cutting gives these lines again, so they can be counted. Numbers and the texts
of spans are within one line unless a path has a line feed in it.
-/

namespace ClangLens

/-! ## Cutting -/

/-- The lines of a text behind the start of a line. What stands behind the last line feed is a line
if there is something. -/
def linesFrom (begun : List Char) : List Char → List String
  | [] => if begun = [] then [] else [String.ofList begun]
  | c :: rest =>
    if c = '\n' then String.ofList begun :: linesFrom [] rest else linesFrom (begun ++ [c]) rest

/-- The lines of a text. -/
def linesOf (s : String) : List String := linesFrom [] s.toList

/-- Nothing in a text begins a new line. -/
def OneLine (s : String) : Prop := '\n' ∉ s.toList

instance (s : String) : Decidable (OneLine s) := inferInstanceAs (Decidable (_ ∉ _))

/-- A text that is nothing or ends with a line feed. -/
def Ended (s : String) : Prop := s = "" ∨ ∃ t, s = t ++ "\n"

/-- Lines put together, each with a line feed behind it. -/
def unlines (ls : List String) : String := String.join (ls.map (· ++ "\n"))

theorem unlines_cons (l : String) (ls : List String) :
    unlines (l :: ls) = l ++ "\n" ++ unlines ls := by
  rw [unlines, List.map_cons, String.join_cons]
  rfl

theorem unlines_append (ls ms : List String) : unlines (ls ++ ms) = unlines ls ++ unlines ms := by
  rw [unlines, List.map_append, String.join_append]
  rfl

theorem unlines_singleton (l : String) : unlines [l] = l ++ "\n" := by
  simp [unlines]

theorem linesFrom_feed (begun x rest : List Char) :
    linesFrom begun (x ++ '\n' :: rest) = linesFrom begun (x ++ ['\n']) ++ linesFrom [] rest := by
  induction x generalizing begun with
  | nil => simp [linesFrom]
  | cons c x ih =>
    rw [List.cons_append, List.cons_append, linesFrom, linesFrom]
    split
    · rw [ih, List.cons_append]
    · exact ih _

theorem linesFrom_oneLine {x : List Char} (h : '\n' ∉ x) (begun : List Char) :
    linesFrom begun (x ++ ['\n']) = [String.ofList (begun ++ x)] := by
  induction x generalizing begun with
  | nil => simp [linesFrom]
  | cons c x ih =>
    rw [List.mem_cons, not_or] at h
    rw [List.cons_append, linesFrom, if_neg (Ne.symm h.1), ih h.2, List.append_assoc]
    rfl

/-- Behind a line feed, lines are cut as if nothing stood in front. -/
theorem linesOf_append {s : String} (h : Ended s) (t : String) :
    linesOf (s ++ t) = linesOf s ++ linesOf t := by
  obtain rfl | ⟨s, rfl⟩ := h
  · rw [String.empty_append]
    rfl
  · have hfeed := linesFrom_feed [] s.toList t.toList
    simpa [linesOf] using hfeed

theorem linesOf_line {l : String} (h : OneLine l) : linesOf (l ++ "\n") = [l] := by
  have hline := linesFrom_oneLine h []
  simpa [linesOf] using hline

namespace Ended

variable {s t : String}

theorem append (hs : Ended s) (ht : Ended t) : Ended (s ++ t) := by
  obtain rfl | ⟨t, rfl⟩ := ht
  · rwa [String.append_empty]
  · exact .inr ⟨s ++ t, (String.append_assoc ..).symm⟩

theorem line (l : String) : Ended (l ++ "\n") := .inr ⟨l, rfl⟩

theorem unlines (ls : List String) : Ended (unlines ls) := by
  induction ls with
  | nil => exact .inl rfl
  | cons l ls ih =>
    rw [unlines_cons]
    exact (Ended.line l).append ih

/-- Each text is one that ends with a line feed and one that has none, behind each other. -/
theorem exists_split (s : String) :
    ∃ front back, s = front ++ back ∧ Ended front ∧ OneLine back := by
  suffices h : ∀ x : List Char, ∃ front back, String.ofList x = front ++ back ∧ Ended front ∧
      OneLine back by
    simpa using h s.toList
  intro x
  induction x using List.reverseRecOn with
  | nil => exact ⟨"", "", rfl, .inl rfl, by decide⟩
  | append_singleton x c ih =>
    by_cases hc : c = '\n'
    · subst hc
      exact ⟨_, "", by simp, .line (String.ofList x), by decide⟩
    · obtain ⟨front, back, h, hfront, hback⟩ := ih
      refine ⟨front, back ++ String.singleton c, ?_, hfront, ?_⟩
      · rw [String.ofList_append, h, String.append_assoc]
        rfl
      · simpa [OneLine] using ⟨hback, Ne.symm hc⟩

end Ended

/-- Lines are what they were put together from. -/
theorem linesOf_unlines {ls : List String} (h : ∀ l ∈ ls, OneLine l) :
    linesOf (unlines ls) = ls := by
  induction ls with
  | nil => rfl
  | cons l ls ih =>
    rw [List.forall_mem_cons] at h
    rw [unlines_cons, linesOf_append (.line l), linesOf_line h.1, ih h.2]
    rfl

example : linesOf "a\n\nb" = ["a", "", "b"] := by decide

/-! ## Within a line -/

@[simp] theorem oneLine_append {s t : String} : OneLine (s ++ t) ↔ OneLine s ∧ OneLine t := by
  simp [OneLine]

theorem oneLine_toString (n : ℕ) : OneLine (toString n) := by
  intro h
  exact absurd (isDigit_of_mem_toString h) (by decide)

/-- The byte that a line feed is written with. -/
def Path.feed : UInt8 := 10

theorem Path.oneLine_text {p : Path} (h : feed ∉ p.bytes) : OneLine p.text :=
  (Utf8.readsAs_iff.mpr rfl).ascii_not_mem (by decide) h

theorem FileSpan.textOrUnknown_eq (s : Option FileSpan) :
    textOrUnknown s = s.elim "<unknown>" text := by
  cases s <;> rfl

/-- The text of a span is within a line if the name of its file is. -/
theorem FileSpan.oneLine_elim {s : Option FileSpan} (h : ∀ p ∈ paths s, Path.feed ∉ p.bytes) :
    OneLine (s.elim "<unknown>" text) := by
  have hplace : ∀ p : Position, OneLine p.text := by
    intro p
    rw [Position.text, oneLine_append, oneLine_append]
    exact ⟨⟨oneLine_toString _, by decide⟩, oneLine_toString _⟩
  have htail : ∀ s : Span, OneLine (tail s) := by
    intro s
    unfold tail
    split
    · decide
    · split
      · exact oneLine_append.mpr ⟨by decide, oneLine_toString _⟩
      · exact oneLine_append.mpr ⟨by decide, hplace _⟩
  cases s with
  | none => decide
  | some s =>
    have hfile : OneLine s.file.text := Path.oneLine_text (h _ List.mem_cons_self)
    rw [Option.elim_some, text, oneLine_append, oneLine_append, oneLine_append]
    exact ⟨⟨⟨hfile, by decide⟩, hplace _⟩, htail _⟩

end ClangLens
