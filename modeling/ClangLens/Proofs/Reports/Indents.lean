import ClangLens.Proofs.Reports.Lines

/-!
# Indented lines

The text of an outline has a line for each declaration at any depth, each declaration in front of
what is declared in it. How far a line is indented says how deep its declaration is, and how deep
the declarations are, one behind the other, says what is declared in what.
-/

namespace ClangLens

/-! ## Lines -/

/-- What the line of a declaration shows, with how deep the declaration is. -/
structure OutlineRow where
  depth : ℕ
  name : String
  kind : String
  span : Option FileSpan
  comment : Option String

namespace OutlineRow

def line (row : OutlineRow) : String :=
  String.ofList (List.replicate (2 * row.depth) ' ') ++ row.name ++ " [" ++ row.kind ++ "] "
    ++ row.span.elim "<unknown>" FileSpan.text ++ row.comment.elim "" ("  // " ++ ·)

/-- Nothing the line shows begins a new line. -/
structure Within (row : OutlineRow) : Prop where
  name : OneLine row.name
  kind : OneLine row.kind
  span : ∀ p ∈ FileSpan.paths row.span, Path.feed ∉ p.bytes
  comment : ∀ c ∈ row.comment, OneLine c

/-- The name is not mistaken for more of the indentation. -/
structure Named (row : OutlineRow) : Prop where
  nonempty : row.name ≠ ""
  unspaced : row.name.toList.head? ≠ some ' '

instance (row : OutlineRow) : Decidable row.Within :=
  decidable_of_iff (OneLine row.name ∧ OneLine row.kind ∧
    (∀ p ∈ FileSpan.paths row.span, Path.feed ∉ p.bytes) ∧ ∀ c ∈ row.comment, OneLine c)
    ⟨fun h => ⟨h.1, h.2.1, h.2.2.1, h.2.2.2⟩, fun h => ⟨h.name, h.kind, h.span, h.comment⟩⟩

instance (row : OutlineRow) : Decidable row.Named :=
  decidable_of_iff (row.name ≠ "" ∧ row.name.toList.head? ≠ some ' ')
    ⟨fun h => ⟨h.1, h.2⟩, fun h => ⟨h.nonempty, h.unspaced⟩⟩

theorem Within.oneLine_line {row : OutlineRow} (h : row.Within) : OneLine row.line := by
  have hindent : OneLine (String.ofList (List.replicate (2 * row.depth) ' ')) := by
    simp [OneLine]
  have hcomment : OneLine (row.comment.elim "" ("  // " ++ ·)) := by
    cases hc : row.comment with
    | none => decide
    | some c => exact oneLine_append.mpr ⟨by decide, h.comment c hc⟩
  simp only [line, oneLine_append]
  exact ⟨⟨⟨⟨⟨⟨hindent, h.name⟩, by decide⟩, h.kind⟩, by decide⟩,
    FileSpan.oneLine_elim h.span⟩, hcomment⟩

/-- The indentation of a line. -/
def indentOf (l : String) : ℕ := (l.toList.takeWhile (· = ' ')).length

theorem Named.indentOf_line {row : OutlineRow} (h : row.Named) :
    indentOf row.line = 2 * row.depth := by
  obtain ⟨c, name, hname⟩ : ∃ c name, row.name.toList = c :: name :=
    List.exists_cons_of_ne_nil (by simpa using h.nonempty)
  have hc : c ≠ ' ' := by
    have hhead := h.unspaced
    rw [hname] at hhead
    simpa using hhead
  obtain ⟨rest, hline⟩ :
      ∃ rest, row.line.toList = List.replicate (2 * row.depth) ' ' ++ c :: rest := by
    simp [line, hname]
  rw [indentOf, hline, List.takeWhile_append_of_pos (by simp),
    List.takeWhile_cons_of_neg (by simpa)]
  simp

end OutlineRow

namespace OutlineEntry

mutual

/-- A declaration and what is declared in it, in the order of their lines. -/
def rows (depth : ℕ) : OutlineEntry → List OutlineRow
  | .mk name kind span _ comment children =>
    ⟨depth, name, kind, span, comment⟩ :: rowsAll (depth + 1) children

def rowsAll (depth : ℕ) : List OutlineEntry → List OutlineRow
  | [] => []
  | e :: rest => e.rows depth ++ rowsAll depth rest

end

mutual

/-- How many declarations there are, those declared in others included. -/
def size : OutlineEntry → ℕ
  | .mk _ _ _ _ _ children => sizeAll children + 1

def sizeAll : List OutlineEntry → ℕ
  | [] => 0
  | e :: rest => e.size + sizeAll rest

end

theorem line_eq (depth : ℕ) (name kind : String) (span : Option FileSpan) (isDefinition : Bool)
    (comment : Option String) (children : List OutlineEntry) :
    line depth (.mk name kind span isDefinition comment children) =
      OutlineRow.line ⟨depth, name, kind, span, comment⟩ ++ "\n" := by
  rw [line, FileSpan.textOrUnknown_eq]
  cases comment <;> simp [OutlineRow.line, Report.comment, Report.around]

mutual

theorem text_eq_rows : ∀ (depth : ℕ) (e : OutlineEntry),
    e.text depth = unlines ((e.rows depth).map OutlineRow.line)
  | depth, .mk name kind span isDefinition comment children => by
    rw [text, rows, List.map_cons, unlines_cons, line_eq, textAll_eq_rows]

theorem textAll_eq_rows : ∀ (depth : ℕ) (entries : List OutlineEntry),
    textAll depth entries = unlines ((rowsAll depth entries).map OutlineRow.line)
  | _, [] => rfl
  | depth, e :: rest => by
    rw [textAll, rowsAll, List.map_append, unlines_append, text_eq_rows, textAll_eq_rows]

end

mutual

theorem length_rows : ∀ (depth : ℕ) (e : OutlineEntry), (e.rows depth).length = e.size
  | depth, .mk _ _ _ _ _ children => by
    rw [rows, size, List.length_cons, length_rowsAll]

theorem length_rowsAll : ∀ (depth : ℕ) (entries : List OutlineEntry),
    (rowsAll depth entries).length = sizeAll entries
  | _, [] => rfl
  | depth, e :: rest => by
    rw [rowsAll, sizeAll, List.length_append, length_rows, length_rowsAll]

end

end OutlineEntry

/-! ## Shapes -/

/-- What is in what. -/
inductive Shape where
  | node (children : List Shape)

namespace Shape

mutual

/-- How deep each node is. -/
def depths (depth : ℕ) : Shape → List ℕ
  | .node children => depth :: depthsAll (depth + 1) children

def depthsAll (depth : ℕ) : List Shape → List ℕ
  | [] => []
  | s :: rest => s.depths depth ++ depthsAll depth rest

end

/-- What stands behind a forest, none of it within the forest. -/
def Shallow (depth : ℕ) (ns : List ℕ) : Prop := ∀ n ∈ ns.head?, n < depth

theorem shallow_depthsAll {depth : ℕ} {ns : List ℕ} (h : Shallow depth ns) (f : List Shape) :
    Shallow (depth + 1) (depthsAll depth f ++ ns) := by
  intro n hn
  cases f with
  | nil => exact Nat.lt_succ_of_lt (h n hn)
  | cons s rest =>
    obtain ⟨children⟩ := s
    obtain rfl : depth = n := by simpa [depthsAll, depths] using hn
    exact Nat.lt_succ_self depth

theorem not_shallow_depthsAll (depth : ℕ) (s : Shape) (f : List Shape) (ns : List ℕ) :
    ¬Shallow depth (depthsAll depth (s :: f) ++ ns) := by
  intro h
  obtain ⟨children⟩ := s
  exact Nat.lt_irrefl depth (h depth (by simp [depthsAll, depths]))

/-- By recursion on the first forest: what is within its first tree is deeper than what follows. -/
theorem depthsAll_cut : ∀ (f g : List Shape) {depth : ℕ} {ns ms : List ℕ}, Shallow depth ns →
    Shallow depth ms → depthsAll depth f ++ ns = depthsAll depth g ++ ms → f = g ∧ ns = ms
  | [], [], _, _, _, _, _, h => ⟨rfl, h⟩
  | [], s :: g, depth, ns, ms, hns, _, h => by
    rw [depthsAll, List.nil_append] at h
    exact absurd (h ▸ hns) (not_shallow_depthsAll depth s g ms)
  | s :: f, [], depth, ns, ms, _, hms, h => by
    rw [depthsAll.eq_1, List.nil_append] at h
    exact absurd (h ▸ hms) (not_shallow_depthsAll depth s f ns)
  | .node cs :: f, .node cs' :: g, depth, ns, ms, hns, hms, h => by
    simp only [depthsAll, depths, List.cons_append, List.append_assoc, List.cons.injEq,
      true_and] at h
    obtain ⟨rfl, hrest⟩ :=
      depthsAll_cut cs cs' (shallow_depthsAll hns f) (shallow_depthsAll hms g) h
    obtain ⟨rfl, rfl⟩ := depthsAll_cut f g hns hms hrest
    exact ⟨rfl, rfl⟩

/-- How deep the nodes are says what is in what. -/
theorem depthsAll_injective (depth : ℕ) : Function.Injective (depthsAll depth) := by
  intro f g h
  have hnothing : Shallow depth [] := by
    intro n hn
    cases hn
  exact (depthsAll_cut f g hnothing hnothing (congrArg (· ++ []) h)).1

end Shape

namespace OutlineEntry

mutual

/-- What is declared in what. -/
def shape : OutlineEntry → Shape
  | .mk _ _ _ _ _ children => .node (shapeAll children)

def shapeAll : List OutlineEntry → List Shape
  | [] => []
  | e :: rest => e.shape :: shapeAll rest

end

mutual

theorem depth_rows : ∀ (depth : ℕ) (e : OutlineEntry),
    (e.rows depth).map OutlineRow.depth = e.shape.depths depth
  | depth, .mk _ _ _ _ _ children => by
    rw [rows, shape, Shape.depths, List.map_cons, depth_rowsAll]

theorem depth_rowsAll : ∀ (depth : ℕ) (entries : List OutlineEntry),
    (rowsAll depth entries).map OutlineRow.depth = Shape.depthsAll depth (shapeAll entries)
  | _, [] => rfl
  | depth, e :: rest => by
    rw [rowsAll, shapeAll, Shape.depthsAll, List.map_append, depth_rows, depth_rowsAll]

end

end OutlineEntry

/-! ## Reports -/

namespace OutlineReport

def rows (r : OutlineReport) : List OutlineRow := OutlineEntry.rowsAll 0 r.entries

/-- What is declared in what. -/
def shape (r : OutlineReport) : List Shape := OutlineEntry.shapeAll r.entries

theorem text_eq (r : OutlineReport) : Report.text r = unlines (r.rows.map OutlineRow.line) :=
  OutlineEntry.textAll_eq_rows 0 r.entries

theorem linesOf_text {r : OutlineReport} (h : ∀ row ∈ r.rows, row.Within) :
    linesOf (Report.text r) = r.rows.map OutlineRow.line := by
  rw [r.text_eq]
  refine linesOf_unlines fun l hl => ?_
  obtain ⟨row, hrow, rfl⟩ := List.mem_map.mp hl
  exact (h row hrow).oneLine_line

theorem indents_eq {r : OutlineReport} (h : ∀ row ∈ r.rows, row.Named) :
    (r.rows.map OutlineRow.line).map OutlineRow.indentOf =
      (Shape.depthsAll 0 r.shape).map (2 * ·) := by
  have hdepths : r.rows.map OutlineRow.depth = Shape.depthsAll 0 r.shape :=
    OutlineEntry.depth_rowsAll 0 r.entries
  rw [← hdepths, List.map_map, List.map_map]
  refine List.map_congr_left fun row hrow => ?_
  rw [Function.comp_apply, Function.comp_apply, (h row hrow).indentOf_line]

/-- **Outlines by lines.** The text of an outline is a line for each declaration, those declared in
others behind them and indented further. Where nothing in a line begins a new one, there are as many
lines as declarations; and where no name is taken for indentation, the text says what is declared in
what. -/
theorem texts_tell_shapes :
    (∀ r : OutlineReport, Report.text r = String.join (r.rows.map fun row => row.line ++ "\n")) ∧
      (∀ r : OutlineReport, (∀ row ∈ r.rows, row.Within) →
        (linesOf (Report.text r)).length = OutlineEntry.sizeAll r.entries) ∧
      ∀ r s : OutlineReport, (∀ row ∈ r.rows, row.Within ∧ row.Named) →
        (∀ row ∈ s.rows, row.Within ∧ row.Named) → Report.text r = Report.text s →
        r.shape = s.shape := by
  refine ⟨fun r => ?_, fun r h => ?_, fun r s hr hs h => ?_⟩
  · rw [r.text_eq, unlines, List.map_map]
    rfl
  · rw [linesOf_text h, List.length_map]
    exact OutlineEntry.length_rowsAll 0 r.entries
  · have hlines : r.rows.map OutlineRow.line = s.rows.map OutlineRow.line := by
      rw [← linesOf_text fun row hrow => (hr row hrow).1, h,
        linesOf_text fun row hrow => (hs row hrow).1]
    have hdepths : (Shape.depthsAll 0 r.shape).map (2 * ·) =
        (Shape.depthsAll 0 s.shape).map (2 * ·) := by
      rw [← indents_eq fun row hrow => (hr row hrow).2, hlines,
        indents_eq fun row hrow => (hs row hrow).2]
    refine Shape.depthsAll_injective 0 (List.map_injective_iff.mpr ?_ hdepths)
    exact fun n m h => Nat.mul_left_cancel (by decide) h

/-- A structure with a field and a function behind it. What is a definition is not shown. -/
def fieldReport (isDefinition : Bool) : OutlineReport :=
  ⟨.ofString "a.c", [.mk "s" "Cursor=StructDecl" none isDefinition (some "a // b")
    [.mk "x y" "Cursor=FieldDecl" (some (.point (.ofString "a.c") ⟨2, 3⟩)) true none []],
    .mk "f" "Cursor=FunctionDecl" none isDefinition none []]⟩

theorem fieldReport_shape :
    Report.text (fieldReport true) =
        "s [Cursor=StructDecl] <unknown>  // a // b\n" ++
        "  x y [Cursor=FieldDecl] a.c:2:3\n" ++
        "f [Cursor=FunctionDecl] <unknown>\n" ∧
      (linesOf (Report.text (fieldReport true))).length = 3 ∧
      (fieldReport true).shape = (fieldReport false).shape := by
  obtain ⟨htext, hlength, hshape⟩ := texts_tell_shapes
  have hrows := htext (fieldReport true)
  have hlines := hlength (fieldReport true) (by decide +kernel)
  have hsame : Report.text (fieldReport true) = Report.text (fieldReport false) := by
    decide +kernel
  exact ⟨hrows.trans (by decide +kernel), hlines.trans rfl,
    hshape _ _ (by decide +kernel) (by decide +kernel) hsame⟩

end OutlineReport

end ClangLens
