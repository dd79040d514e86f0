import Mathlib.Data.List.DropRight
import ClangLens.Path.FileName
import ClangLens.Proofs.Encoding
import ClangLens.Proofs.Path.Meaning

/-!
# The file name and what is in front of it

A path that ends in a name means what is in front of the name, and the name. What is in front is
spelled by the segments up to the last one that means something, and a path with another file name
means the same in front of it.
-/

namespace ClangLens.Path

variable {p : Path} {first name s bytes : Bytes} {rest : List Bytes}

/-! ## Segments and their bytes -/

theorem separator_not_mem_of_mem_segments (h : s ∈ segments bytes) : separator ∉ s := by
  induction bytes generalizing s with
  | nil =>
    obtain rfl := List.mem_singleton.mp h
    exact List.not_mem_nil
  | cons b bytes ih =>
    obtain ⟨first, rest, hsegments⟩ := List.exists_cons_of_ne_nil (segments_ne_nil bytes)
    rw [segments_cons hsegments] at h
    rw [hsegments] at ih
    split at h
    · rcases List.mem_cons.mp h with rfl | h
      · exact List.not_mem_nil
      · exact ih h
    · rename_i hb
      rcases List.mem_cons.mp h with rfl | h
      · exact List.not_mem_cons_of_ne_of_not_mem (Ne.symm hb) (ih List.mem_cons_self)
      · exact ih (List.mem_cons_of_mem _ h)

theorem segments_eq_singleton (h : separator ∉ s) : segments s = [s] := by
  induction s with
  | nil => rfl
  | cons b s ih =>
    rw [segments_cons (ih (List.not_mem_of_not_mem_cons h)),
      if_neg (Ne.symm (List.ne_of_not_mem_cons h))]

theorem unsegments_cons (first : Bytes) (rest : List Bytes) :
    unsegments (first :: rest) = first ++ rest.flatMap (separator :: ·) := by
  induction rest generalizing first with
  | nil => exact (List.append_nil first).symm
  | cons s rest ih =>
    show first ++ separator :: unsegments (s :: rest) = _
    rw [ih]
    rfl

theorem segments_unsegments (h : ∀ s ∈ first :: rest, separator ∉ s) :
    segments (unsegments (first :: rest)) = first :: rest := by
  induction rest generalizing first with
  | nil => exact segments_eq_singleton (h first List.mem_cons_self)
  | cons s rest ih =>
    obtain ⟨hfirst, hrest⟩ := List.forall_mem_cons.mp h
    show segments (first ++ separator :: unsegments (s :: rest)) = _
    rw [segments_append, segments_eq_singleton hfirst, ih hrest]
    rfl

/-- The segments of a text are texts. -/
theorem exists_text_of_mem_segments {t : String} (h : s ∈ segments (Utf8.encode t)) :
    ∃ u, s = Utf8.encode u := by
  obtain ⟨first, rest, hsegments⟩ := List.exists_cons_of_ne_nil (segments_ne_nil (Utf8.encode t))
  have hbytes := eq_of_segments hsegments
  rw [hsegments] at h
  clear hsegments
  induction rest generalizing first t with
  | nil =>
    obtain rfl := List.mem_singleton.mp h
    exact ⟨t, by simpa using hbytes.symm⟩
  | cons next rest ih =>
    rw [List.flatMap_cons] at hbytes
    obtain ⟨u, v, -, hfirst, hrest⟩ :=
      Utf8.exists_of_encode_eq_append (c := '/') (by decide) hbytes
    rcases List.mem_cons.mp h with rfl | h
    · exact ⟨u, hfirst⟩
    · exact ih next h hrest.symm

/-! ## The first segment and the others -/

/-- What the first segment means in front of others. -/
def leading (first : Bytes) (rest : List Bytes) : List Component :=
  if first = [] ∧ rest ≠ [] then [.root]
  else if first = [dot] then [.here] else (Component.ofSegment? first).toList

theorem isAbsolute_iff_segments (h : segments p.bytes = first :: rest) :
    p.isAbsolute ↔ first = [] ∧ rest ≠ [] := by
  have hfirst : separator ∉ first :=
    separator_not_mem_of_mem_segments (h ▸ List.mem_cons_self)
  rw [isAbsolute, eq_of_segments h]
  cases first with
  | nil => cases rest <;> simp
  | cons b first => simpa using Ne.symm (List.ne_of_not_mem_cons hfirst)

theorem components_of_segments (h : segments p.bytes = first :: rest) :
    p.components = leading first rest ++ rest.filterMap Component.ofSegment? := by
  rw [components, h]
  simp only [isAbsolute_iff_segments h, leading]
  congr 1
  split
  · rfl
  · split <;> rfl

/-- If the first segment means a name, it means nothing else. -/
theorem leading_of_mem (h : .name name ∈ leading first rest) :
    Component.ofSegment? first = some (.name name) ∧ leading first rest = [.name name] ∧
      ¬(first = [] ∧ rest ≠ []) := by
  unfold leading at h ⊢
  by_cases hroot : first = [] ∧ rest ≠ []
  · rw [if_pos hroot] at h
    simp at h
  by_cases hhere : first = [dot]
  · rw [if_neg hroot, if_pos hhere] at h
    simp at h
  rw [if_neg hroot, if_neg hhere] at h ⊢
  have hmeans := Option.mem_toList.mp h
  exact ⟨hmeans, by rw [hmeans]; rfl, hroot⟩

/-- A segment that stands alone and means a name. -/
structure IsName (s : Bytes) : Prop where
  separator_not_mem : separator ∉ s
  means : Component.ofSegment? s = some (.name s)

theorem isName_of_length (h : separator ∉ s) (hlength : 2 < s.length) : IsName s := by
  refine ⟨h, ?_⟩
  unfold Component.ofSegment?
  rw [if_neg, if_neg, if_neg] <;> rintro rfl <;> simp at hlength

theorem IsName.ne_nil (h : IsName s) : s ≠ [] := by
  rintro rfl
  exact nomatch h.means

theorem IsName.components (h : IsName s) : components ⟨s⟩ = [.name s] := by
  have hdot : s ≠ [dot] := by
    rintro rfl
    exact nomatch h.means
  rw [components_of_segments (segments_eq_singleton h.separator_not_mem), leading,
    if_neg (by simp), if_neg hdot, h.means]
  rfl

/-! ## The file name -/

theorem fileName?_eq_some_iff :
    p.fileName? = some name ↔ ∃ cs, p.components = cs ++ [.name name] := by
  rw [← List.getLast?_eq_some_iff, fileName?]
  cases h : p.components.getLast? with
  | none => simp
  | some c => cases c <;> simp

/-- The file name is one of the segments. -/
theorem isName_of_fileName? (h : p.fileName? = some name) :
    name ∈ segments p.bytes ∧ IsName name := by
  obtain ⟨cs, hcs⟩ := fileName?_eq_some_iff.mp h
  obtain ⟨first, rest, hsegments⟩ := List.exists_cons_of_ne_nil (segments_ne_nil p.bytes)
  have hmem : .name name ∈ leading first rest ++ rest.filterMap Component.ofSegment? := by
    rw [← components_of_segments hsegments, hcs]
    exact List.mem_append_right _ List.mem_cons_self
  have hfound : ∃ s ∈ first :: rest, Component.ofSegment? s = some (.name name) := by
    rcases List.mem_append.mp hmem with hfirst | hrest
    · exact ⟨first, List.mem_cons_self, (leading_of_mem hfirst).1⟩
    · obtain ⟨s, hs, hmeans⟩ := List.mem_filterMap.mp hrest
      exact ⟨s, List.mem_cons_of_mem _ hs, hmeans⟩
  obtain ⟨s, hs, hmeans⟩ := hfound
  obtain rfl : name = s := (ofSegment?_eq_some hmeans).1
  rw [← hsegments] at hs
  exact ⟨hs, separator_not_mem_of_mem_segments hs, hmeans⟩

/-! ## In front of the file name -/

/-- The path in front of the last component. -/
def parent (p : Path) : Path := ⟨p.parentBytes⟩

/-- A segment without meaning, unless it is the first. -/
def isIdle (s : Bytes) : Bool := s = [] || s = [dot]

theorem ofSegment?_of_isIdle (h : isIdle s) : Component.ofSegment? s = none := by
  rcases (by simpa [isIdle] using h : s = [] ∨ s = [dot]) with rfl | rfl <;> rfl

theorem isIdle_of_ofSegment? (h : Component.ofSegment? s = none) : isIdle s := by
  rcases ofSegment?_eq_none h with rfl | rfl <;> rfl

theorem dropIdle_cons (first : Bytes) (rest : List Bytes) :
    dropIdle (first :: rest) = first :: rest.rdropWhile isIdle := rfl

theorem filterMap_rdropWhile (rest : List Bytes) :
    (rest.rdropWhile isIdle).filterMap Component.ofSegment? =
      rest.filterMap Component.ofSegment? := by
  have hidle : (rest.rtakeWhile isIdle).filterMap Component.ofSegment? = [] :=
    List.filterMap_eq_nil_iff.mpr fun s hs => ofSegment?_of_isIdle (List.mem_rtakeWhile_imp hs)
  conv_rhs => rw [← List.rdropWhile_append_rtakeWhile (p := isIdle) (l := rest)]
  rw [List.filterMap_append, hidle, List.append_nil]

/-- Idle segments dropped, the last one that is left means something. -/
theorem ofSegment?_isSome_of_concat {front : List Bytes}
    (h : rest.rdropWhile isIdle = front ++ [s]) : (Component.ofSegment? s).isSome := by
  have hlast := List.rdropWhile_last_not isIdle rest (by simp [h])
  simp only [h, List.getLast_concat] at hlast
  rw [Option.isSome_iff_ne_none]
  exact fun hs => hlast (isIdle_of_ofSegment? hs)

theorem unsegments_eq_nil_iff : unsegments (first :: rest) = [] ↔ first = [] ∧ rest = [] := by
  rw [unsegments_cons]
  cases rest <;> simp

/-- What is spelled in front of a last segment with a meaning that is not the first. -/
theorem parentBytes_of_concat {front : List Bytes} (hsegments : segments p.bytes = first :: rest)
    (hrest : rest ≠ []) (hfront : rest.rdropWhile isIdle = front ++ [s]) :
    p.parentBytes =
      if first = [] ∧ front.rdropWhile isIdle = [] then [separator]
      else unsegments (first :: front.rdropWhile isIdle) := by
  rw [parentBytes, hsegments, dropIdle_cons, hfront, ← List.cons_append, List.dropLast_concat,
    dropIdle_cons]
  simp only [Bool.and_eq_true, decide_eq_true_eq, isAbsolute_iff_segments hsegments,
    unsegments_eq_nil_iff, hrest, ne_eq, not_false_eq_true, and_true, ← and_assoc, and_self]

/-- Idle segments at the end can be left out, and an absolute path in front of others stays one. -/
theorem components_trimmed {front : List Bytes} (hfront : ∀ s ∈ first :: front, separator ∉ s)
    (hrest : rest ≠ []) :
    components ⟨if first = [] ∧ front.rdropWhile isIdle = [] then [separator]
      else unsegments (first :: front.rdropWhile isIdle)⟩ =
      leading first rest ++ front.filterMap Component.ofSegment? := by
  rw [← filterMap_rdropWhile]
  by_cases h : first = [] ∧ front.rdropWhile isIdle = []
  · rw [if_pos h, leading, if_pos ⟨h.1, hrest⟩, h.2]
    rfl
  · have hkept : ∀ s ∈ first :: front.rdropWhile isIdle, separator ∉ s := by
      rw [List.forall_mem_cons] at hfront ⊢
      exact ⟨hfront.1, fun s hs => hfront.2 s ((List.rdropWhile_prefix _ _).subset hs)⟩
    rw [if_neg h, components_of_segments (segments_unsegments hkept)]
    congr 1
    unfold leading
    by_cases hfirst : first = []
    · rw [if_pos ⟨hfirst, fun hkept => h ⟨hfirst, hkept⟩⟩, if_pos ⟨hfirst, hrest⟩]
    · simp only [hfirst, false_and, if_false]

/-- A last segment with a meaning that is not the first stands behind the parent. -/
theorem exists_components_of_concat {front : List Bytes}
    (hsegments : segments p.bytes = first :: rest)
    (hfront : rest.rdropWhile isIdle = front ++ [s]) :
    ∃ c, p.components = p.parent.components ++ [c] := by
  obtain ⟨c, hc⟩ := Option.isSome_iff_exists.mp (ofSegment?_isSome_of_concat hfront)
  have hkept : front ++ [s] ⊆ rest := hfront ▸ (List.rdropWhile_prefix isIdle rest).subset
  have hrest : rest ≠ [] :=
    List.ne_nil_of_mem (hkept (List.mem_append_right _ List.mem_cons_self))
  have hseparator : ∀ s ∈ first :: front, separator ∉ s := by
    intro s hs
    have hmem : s ∈ segments p.bytes := by
      rw [hsegments]
      exact List.cons_subset_cons first (List.Subset.trans (List.subset_append_left _ _) hkept) hs
    exact separator_not_mem_of_mem_segments hmem
  refine ⟨c, ?_⟩
  rw [components_of_segments hsegments, ← filterMap_rdropWhile, hfront, List.filterMap_append,
    List.filterMap_cons_some hc, List.filterMap_nil, ← List.append_assoc,
    ← components_trimmed hseparator hrest, ← parentBytes_of_concat hsegments hrest hfront]
  rfl

/-- If nothing behind the first segment means anything, a name can only be the first. -/
theorem components_of_first (hsegments : segments p.bytes = first :: rest)
    (hrest : rest.rdropWhile isIdle = []) (h : .name name ∈ p.components) :
    p.components = [.name name] ∧ p.parentBytes = [] := by
  have hcomponents : p.components = leading first rest := by
    rw [components_of_segments hsegments, ← filterMap_rdropWhile, hrest, List.filterMap_nil,
      List.append_nil]
  rw [hcomponents] at h ⊢
  obtain ⟨-, hleading, hroot⟩ := leading_of_mem h
  refine ⟨hleading, ?_⟩
  rw [parentBytes, hsegments, dropIdle_cons, hrest]
  simp only [Bool.and_eq_true, isAbsolute_iff_segments hsegments, hroot, false_and]
  rfl

/-- **In front of the file name.** A path that ends in a name means what its parent does, and the
name. -/
theorem components_eq_parent (h : p.fileName? = some name) :
    p.components = p.parent.components ++ [.name name] := by
  obtain ⟨cs, hcs⟩ := fileName?_eq_some_iff.mp h
  obtain ⟨first, rest, hsegments⟩ := List.exists_cons_of_ne_nil (segments_ne_nil p.bytes)
  rcases List.eq_nil_or_concat' (rest.rdropWhile isIdle) with hnil | ⟨front, s, hfront⟩
  · have hmem : .name name ∈ p.components := by
      rw [hcs]
      exact List.mem_append_right _ List.mem_cons_self
    obtain ⟨hcomponents, hparent⟩ := components_of_first hsegments hnil hmem
    rw [hcomponents, parent, hparent]
    rfl
  · obtain ⟨c, hc⟩ := exists_components_of_concat hsegments hfront
    obtain ⟨-, hname⟩ := List.append_inj' (hc.symm.trans hcs) rfl
    rw [hc, hname]

theorem dropLast_components (h : p.fileName? = some name) :
    p.components.dropLast = p.parent.components := by
  rw [components_eq_parent h, List.dropLast_concat]

theorem same_iff_of_fileName? {q : Path} {name' : Bytes} (hp : p.fileName? = some name)
    (hq : q.fileName? = some name') :
    p.same q ↔ p.parent.components = q.parent.components ∧ name = name' := by
  rw [same, decide_eq_true_eq, components_eq_parent hp, components_eq_parent hq]
  constructor
  · intro h
    obtain ⟨hparent, hname⟩ := List.append_inj' h rfl
    simp only [List.cons.injEq, Component.name.injEq, and_true] at hname
    exact ⟨hparent, hname⟩
  · rintro ⟨hparent, rfl⟩
    rw [hparent]

/-! ## Another file name -/

variable {name' : Bytes}

theorem components_withFileName (h : p.fileName? = some name) (hname' : IsName name') :
    (p.withFileName name').components = p.parent.components ++ [.name name'] := by
  have hjoin : p.withFileName name' = p.parent.join ⟨name'⟩ := by
    rw [withFileName, h]
    rfl
  rw [hjoin, components_join, hname'.components, joined]
  by_cases hparent : p.parent.components = []
  · rw [if_pos (.inr hparent), hparent]
    rfl
  · rw [if_neg (by simp [hparent])]
    rfl

theorem fileName?_withFileName (h : p.fileName? = some name) (hname' : IsName name') :
    (p.withFileName name').fileName? = some name' :=
  fileName?_eq_some_iff.mpr ⟨_, components_withFileName h hname'⟩

theorem parent_withFileName (h : p.fileName? = some name) (hname' : IsName name') :
    (p.withFileName name').parent.components = p.parent.components := by
  have hcomponents := components_eq_parent (fileName?_withFileName h hname')
  rw [components_withFileName h hname'] at hcomponents
  exact (List.append_cancel_right hcomponents).symm

end ClangLens.Path
