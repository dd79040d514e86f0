import ClangLens.Proofs.Reports.Paths
import ClangLens.Source.Span

/-!
# The text of a span in a file

A span is written behind its file as two, three or four numbers, each behind a colon or a dash. A
path may end in anything that looks like such numbers. But the characters in front of the last
number and of the one before it tell how many numbers there are, so a text is that of one span in a
file of one name.
-/

namespace ClangLens

/-! ## Numbers at the end of a text -/

/-- A text with a number behind it. -/
def numbered (front : List Char) (separator : Char) (n : ℕ) : List Char :=
  front ++ separator :: (toString n).toList

variable {x y : List Char} {c d : Char} {n m : ℕ}

/-- A number ends in front of the last character that is no digit. -/
theorem eq_nil_of_number_eq {rest : List Char} (hd : ¬d.isDigit)
    (h : c :: (toString n).toList = rest ++ d :: (toString m).toList) : rest = [] := by
  cases rest with
  | nil => rfl
  | cons e rest =>
    have hdigits : (toString n).toList = rest ++ d :: (toString m).toList := (List.cons.inj h).2
    refine absurd (isDigit_of_mem_toString (n := n) ?_) hd
    rw [hdigits]
    exact List.mem_append_right _ List.mem_cons_self

/-- What stands behind the last character that is no digit is the number, and what stands in front
of it is the text. -/
theorem numbered_inj (hc : ¬c.isDigit) (hd : ¬d.isDigit) :
    numbered x c n = numbered y d m ↔ x = y ∧ c = d ∧ n = m := by
  constructor
  · intro h
    have hfront : x = y := by
      rcases List.append_eq_append_iff.mp h with ⟨rest, hy, hrest⟩ | ⟨rest, hx, hrest⟩
      · rw [hy, eq_nil_of_number_eq hd hrest, List.append_nil]
      · rw [hx, eq_nil_of_number_eq hc hrest, List.append_nil]
    obtain ⟨hseparator, hdigits⟩ := List.cons.inj (List.append_cancel_left (hfront ▸ h))
    exact ⟨hfront, hseparator, toString_toList_inj hdigits⟩
  · rintro ⟨rfl, rfl, rfl⟩
    rfl

/-! ## Spans -/

/-- Paths that are text are known by it. -/
theorem Path.eq_of_text_eq {p q : Path} (hp : p.IsText) (hq : q.IsText) (h : p.text = q.text) :
    p = q := by
  obtain ⟨s, hs⟩ := Option.isSome_iff_exists.mp hp
  obtain ⟨t, ht⟩ := Option.isSome_iff_exists.mp hq
  have hst : s = t := by
    rw [← Utf8.lossy_of_decode? hs, ← Utf8.lossy_of_decode? ht]
    exact h
  obtain ⟨bytes⟩ := p
  obtain ⟨bytes'⟩ := q
  congr 1
  exact (Utf8.decode?_eq_some_iff.mp hs).trans (hst ▸ (Utf8.decode?_eq_some_iff.mp ht).symm)

attribute [ext] Position Span FileSpan

namespace FileSpan

/-- The file and the start. -/
def head (s : FileSpan) : List Char :=
  numbered (numbered s.file.text.toList ':' s.span.start.line.toNat) ':' s.span.start.column.toNat

/-- The three forms, of which the first two take something over from the start. -/
theorem toList_text (s : FileSpan) :
    (s.span.stop = s.span.start ∧ s.text.toList = s.head) ∨
      (s.span.stop.line = s.span.start.line ∧
        s.text.toList = numbered s.head '-' s.span.stop.column.toNat) ∨
      s.text.toList =
        numbered (numbered s.head '-' s.span.stop.line.toNat) ':' s.span.stop.column.toNat := by
  unfold text tail head numbered Position.text
  split
  next h => exact .inl ⟨h.symm, by simp⟩
  next =>
    split
    next h => exact .inr (.inl ⟨h.symm, by simp⟩)
    next => exact .inr (.inr (by simp))

variable {s t : FileSpan}

theorem head_inj : s.head = t.head ↔ s.file.text = t.file.text ∧ s.span.start = t.span.start := by
  unfold head
  rw [numbered_inj (by decide) (by decide), numbered_inj (by decide) (by decide),
    String.toList_inj, UInt32.toNat_inj, UInt32.toNat_inj, Position.ext_iff]
  simp only [true_and, and_assoc]

/-- The number that ends a start is behind a colon. -/
theorem head_ne_dashed : s.head ≠ numbered x '-' n := by
  unfold head
  rw [Ne, numbered_inj (by decide) (by decide)]
  exact fun h => absurd h.2.1 (by decide)

/-- And so is the number in front of it. -/
theorem head_ne_dashed_place : s.head ≠ numbered (numbered x '-' n) ':' m := by
  unfold head
  rw [Ne, numbered_inj (by decide) (by decide), numbered_inj (by decide) (by decide)]
  exact fun h => absurd h.1.2.1 (by decide)

theorem dashed_ne_place : numbered x '-' n ≠ numbered y ':' m := by
  rw [Ne, numbered_inj (by decide) (by decide)]
  exact fun h => absurd h.2.1 (by decide)

theorem text_inj (h : s.text = t.text) :
    s.file.text = t.file.text ∧ s.span.start = t.span.start ∧ s.span.stop = t.span.stop := by
  rw [← String.toList_inj] at h
  rcases s.toList_text with ⟨hs, hstext⟩ | ⟨hs, hstext⟩ | hstext <;>
    rcases t.toList_text with ⟨ht, httext⟩ | ⟨ht, httext⟩ | httext <;>
    rw [hstext, httext] at h
  · obtain ⟨hfile, hstart⟩ := head_inj.mp h
    exact ⟨hfile, hstart, hs.trans (hstart.trans ht.symm)⟩
  · exact absurd h head_ne_dashed
  · exact absurd h head_ne_dashed_place
  · exact absurd h.symm head_ne_dashed
  · obtain ⟨hhead, -, hcolumn⟩ := (numbered_inj (by decide) (by decide)).mp h
    obtain ⟨hfile, hstart⟩ := head_inj.mp hhead
    refine ⟨hfile, hstart, Position.ext ?_ (UInt32.toNat_inj.mp hcolumn)⟩
    rw [hs, ht, hstart]
  · exact absurd h dashed_ne_place
  · exact absurd h.symm head_ne_dashed_place
  · exact absurd h.symm dashed_ne_place
  · obtain ⟨hplace, -, hcolumn⟩ := (numbered_inj (by decide) (by decide)).mp h
    obtain ⟨hhead, -, hline⟩ := (numbered_inj (by decide) (by decide)).mp hplace
    obtain ⟨hfile, hstart⟩ := head_inj.mp hhead
    exact ⟨hfile, hstart, Position.ext (UInt32.toNat_inj.mp hline) (UInt32.toNat_inj.mp hcolumn)⟩

/-- **Texts of spans.** Spans written alike have the same ends, in files of the same name, and if
those names are text they are the same span. -/
theorem texts_tell_spans :
    (∀ s t : FileSpan, s.text = t.text → s.file.text = t.file.text ∧
      s.span.start = t.span.start ∧ s.span.stop = t.span.stop) ∧
    ∀ s t : FileSpan, s.file.IsText → t.file.IsText → s.text = t.text → s = t := by
  refine ⟨fun s t => text_inj, fun s t hs ht h => ?_⟩
  obtain ⟨hfile, hstart, hstop⟩ := text_inj h
  exact FileSpan.ext (Path.eq_of_text_eq hs ht hfile) (Span.ext hstart hstop)

/-- A path that looks like the text of a span, and a byte that is no text behind it. -/
def lookalike (stray : UInt8) : Path := ⟨Utf8.encode "a.c:3:5-7:2" ++ [stray]⟩

/-- Stray bytes are shown alike, and numbers that a path ends in stay apart from those of the
span. -/
theorem lookalikes_told :
    (text ⟨lookalike 254, ⟨1, 2⟩, ⟨1, 9⟩⟩ = text ⟨lookalike 255, ⟨1, 2⟩, ⟨1, 9⟩⟩ ∧
      (lookalike 254).text = (lookalike 255).text) ∧
    (text ⟨lookalike 49, ⟨3, 5⟩, ⟨7, 2⟩⟩ = text ⟨.ofString "a.c:3:5-7:21", ⟨3, 5⟩, ⟨7, 2⟩⟩ ∧
      (⟨lookalike 49, ⟨3, 5⟩, ⟨7, 2⟩⟩ : FileSpan) =
        ⟨.ofString "a.c:3:5-7:21", ⟨3, 5⟩, ⟨7, 2⟩⟩) := by
  have hstray : text ⟨lookalike 254, ⟨1, 2⟩, ⟨1, 9⟩⟩ = text ⟨lookalike 255, ⟨1, 2⟩, ⟨1, 9⟩⟩ := by
    decide +kernel
  have htext : text ⟨lookalike 49, ⟨3, 5⟩, ⟨7, 2⟩⟩ =
      text ⟨.ofString "a.c:3:5-7:21", ⟨3, 5⟩, ⟨7, 2⟩⟩ := by
    decide +kernel
  obtain ⟨hplaces, hspans⟩ := texts_tell_spans
  exact ⟨⟨hstray, (hplaces _ _ hstray).1⟩, htext,
    hspans _ _ (by decide +kernel) (by decide +kernel) htext⟩

end FileSpan

end ClangLens
