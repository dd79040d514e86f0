import Mathlib.Logic.Relation
import ClangLens.Path.Basic

/-!
# The meaning of a path

What is behind a slash adds the components of its segments to those in front of it. So a path means
the same with a slash repeated, with one at its end, and with a `.` behind a slash, and two paths
mean the same only if such changes lead from one to the other.
-/

namespace ClangLens.Path

/-! ## Segments -/

theorem segments_ne_nil (bytes : Bytes) : segments bytes ≠ [] := by
  cases bytes with
  | nil => exact List.cons_ne_nil _ _
  | cons b rest =>
    rw [segments]
    split
    · exact List.cons_ne_nil _ _
    · split <;> exact List.cons_ne_nil _ _

theorem segments_cons {b : UInt8} {rest s : Bytes} {more : List Bytes}
    (h : segments rest = s :: more) :
    segments (b :: rest) = if b = separator then [] :: s :: more else (b :: s) :: more := by
  rw [segments, h]

theorem segments_separator (rest : Bytes) : segments (separator :: rest) = [] :: segments rest := by
  obtain ⟨s, more, h⟩ := List.exists_cons_of_ne_nil (segments_ne_nil rest)
  rw [segments_cons h, if_pos rfl, h]

theorem segments_append (front rest : Bytes) :
    segments (front ++ separator :: rest) = segments front ++ segments rest := by
  induction front with
  | nil => exact segments_separator rest
  | cons b front ih =>
    obtain ⟨s, more, h⟩ := List.exists_cons_of_ne_nil (segments_ne_nil front)
    rw [List.cons_append, segments_cons (ih.trans (congrArg (· ++ _) h)), segments_cons h]
    split <;> rfl

/-- Bytes are their first segment and the others, each behind a slash. -/
theorem eq_of_segments {bytes first : Bytes} {rest : List Bytes}
    (h : segments bytes = first :: rest) : bytes = first ++ rest.flatMap (separator :: ·) := by
  induction bytes generalizing first rest with
  | nil =>
    cases h
    rfl
  | cons b bytes ih =>
    obtain ⟨s, more, hsegments⟩ := List.exists_cons_of_ne_nil (segments_ne_nil bytes)
    rw [segments_cons hsegments] at h
    have hbytes := ih hsegments
    split at h
    · rename_i hb
      cases h
      rw [List.nil_append, List.flatMap_cons, List.cons_append, ← hbytes, hb]
    · cases h
      rw [List.cons_append, ← hbytes]

/-! ## Components -/

/-- The components of bytes behind a slash. -/
def behind (bytes : Bytes) : List Component := (segments bytes).filterMap Component.ofSegment?

theorem behind_append (front rest : Bytes) :
    behind (front ++ separator :: rest) = behind front ++ behind rest := by
  rw [behind, segments_append, List.filterMap_append]
  rfl

/-- **Slashes.** In front of a slash is a path of its own, or nothing: then the slash is the root. -/
theorem components_append (front rest : Bytes) :
    components ⟨front ++ separator :: rest⟩ =
      (if front = [] then [.root] else components ⟨front⟩) ++ behind rest := by
  cases front with
  | nil =>
    rw [components, List.nil_append, segments_separator]
    rfl
  | cons b front =>
    obtain ⟨first, more, h⟩ := List.exists_cons_of_ne_nil (segments_ne_nil (b :: front))
    rw [if_neg (List.cons_ne_nil _ _), components, components, segments_append, h]
    simp only [List.cons_append, List.filterMap_append, List.append_assoc]
    rfl

theorem isAbsolute_iff {p : Path} : p.isAbsolute ↔ ∃ rest, p = ⟨separator :: rest⟩ := by
  obtain ⟨bytes⟩ := p
  cases bytes <;> simp [isAbsolute]

theorem components_absolute (rest : Bytes) :
    components ⟨separator :: rest⟩ = .root :: behind rest := components_append [] rest

/-- How a component is spelled. -/
def Component.spelling : Component → Bytes
  | .root => [separator]
  | .here => [dot]
  | .up => [dot, dot]
  | .name bytes => bytes

theorem ofSegment?_eq_none {s : Bytes} (h : Component.ofSegment? s = none) :
    s = [] ∨ s = [dot] := by
  unfold Component.ofSegment? at h
  split at h
  · exact .inl ‹_›
  split at h
  · exact .inr ‹_›
  split at h <;> exact nomatch h

theorem ofSegment?_eq_some {s : Bytes} {c : Component} (h : Component.ofSegment? s = some c) :
    c.spelling = s ∧ c ≠ .root ∧ c ≠ .here := by
  unfold Component.ofSegment? at h
  split at h
  · exact nomatch h
  split at h
  · exact nomatch h
  split at h
  · rename_i hs
    obtain rfl := Option.some.inj h
    exact ⟨hs.symm, nofun, nofun⟩
  · obtain rfl := Option.some.inj h
    exact ⟨rfl, nofun, nofun⟩

/-- What a relative path that is not empty starts with. -/
theorem relative_cases {p : Path} (hp : p.bytes ≠ []) (habsolute : ¬ p.isAbsolute) :
    ∃ c rest, segments p.bytes = c.spelling :: rest ∧ c.spelling ≠ [] ∧ c ≠ .root ∧
      p.components = c :: rest.filterMap Component.ofSegment? ∧
      Component.ofSegment? c.spelling = if c = .here then none else some c := by
  obtain ⟨first, rest, hsegments⟩ := List.exists_cons_of_ne_nil (segments_ne_nil p.bytes)
  have hfirst : first ≠ [] := by
    rintro rfl
    have hbytes := eq_of_segments hsegments
    cases rest with
    | nil => exact hp hbytes
    | cons s rest => exact habsolute (by rw [isAbsolute, hbytes]; rfl)
  have hcomponents : p.components =
      (if first = [dot] then some .here else Component.ofSegment? first).toList ++
        rest.filterMap Component.ofSegment? := by
    rw [components, hsegments]
    simp only [habsolute]
    rfl
  by_cases hdot : first = [dot]
  · subst hdot
    exact ⟨.here, rest, hsegments, hfirst, nofun, hcomponents, rfl⟩
  · rw [if_neg hdot] at hcomponents
    cases hc : Component.ofSegment? first with
    | none => exact absurd (ofSegment?_eq_none hc) (not_or.mpr ⟨hfirst, hdot⟩)
    | some c =>
      obtain ⟨rfl, hroot, hhere⟩ := ofSegment?_eq_some hc
      rw [hc] at hcomponents
      exact ⟨c, rest, hsegments, hfirst, hroot, hcomponents, by rw [if_neg hhere, hc]⟩

theorem components_eq_nil_iff {p : Path} : p.components = [] ↔ p.bytes = [] := by
  by_cases hp : p.bytes = []
  · obtain ⟨bytes⟩ := p
    subst hp
    exact iff_of_true rfl rfl
  refine iff_of_false (fun h => ?_) hp
  by_cases habsolute : p.isAbsolute
  · obtain ⟨rest, rfl⟩ := isAbsolute_iff.mp habsolute
    exact nomatch (components_absolute rest).symm.trans h
  · obtain ⟨c, rest, -, -, -, hcomponents, -⟩ := relative_cases hp habsolute
    exact nomatch hcomponents.symm.trans h

theorem isAbsolute_iff_head? {p : Path} :
    p.isAbsolute ↔ p.components.head? = some .root := by
  by_cases habsolute : p.isAbsolute
  · obtain ⟨rest, rfl⟩ := isAbsolute_iff.mp habsolute
    rw [components_absolute]
    exact iff_of_true habsolute rfl
  · refine iff_of_false habsolute ?_
    by_cases hp : p.bytes = []
    · rw [components_eq_nil_iff.mpr hp]
      exact nofun
    · obtain ⟨c, rest, -, -, hroot, hcomponents, -⟩ := relative_cases hp habsolute
      rw [hcomponents]
      exact fun h => hroot (Option.some.inj h)

/-- A relative path behind a slash loses the `.` that it may start with. -/
theorem behind_eq_filter {p : Path} (habsolute : ¬ p.isAbsolute) :
    behind p.bytes = p.components.filter (· ≠ .here) := by
  by_cases hp : p.bytes = []
  · rw [components_eq_nil_iff.mpr hp, hp]
    rfl
  · obtain ⟨c, rest, hsegments, -, -, hcomponents, hc⟩ := relative_cases hp habsolute
    have hrest : ∀ d ∈ rest.filterMap Component.ofSegment?, d ≠ .here := by
      intro d hd
      obtain ⟨s, -, hs⟩ := List.mem_filterMap.mp hd
      exact (ofSegment?_eq_some hs).2.2
    rw [behind, hsegments, hcomponents, List.filterMap_cons, hc, List.filter_cons,
      List.filter_eq_self.mpr fun d hd => decide_eq_true (hrest d hd)]
    by_cases hhere : c = .here <;> simp [hhere]

/-! ## Joining -/

/-- The components of a path seen from another, by the components of both. -/
def joined (cs ds : List Component) : List Component :=
  if ds.head? = some .root ∨ cs = [] then ds else cs ++ ds.filter (· ≠ .here)

/-- **Joining.** What a joined path means depends only on what its parts mean. -/
theorem components_join (p q : Path) : (p.join q).components = joined p.components q.components := by
  simp only [join, joined, ← isAbsolute_iff_head?, components_eq_nil_iff]
  by_cases hq : q.isAbsolute
  · rw [if_pos hq, if_pos (.inl hq)]
  rw [if_neg hq, ← behind_eq_filter hq]
  by_cases hp : p.bytes = []
  · rw [if_pos (by simp [hp]), if_pos (.inr hp), hp]
    rfl
  rw [if_neg (not_or.mpr ⟨hq, hp⟩)]
  split
  · -- the slash at the end is the one that joins
    rename_i hend
    have hlast : p.bytes.getLast? = some separator := by simpa [hp] using hend
    obtain ⟨front, hfront⟩ := List.getLast?_eq_some_iff.mp hlast
    obtain ⟨bytes⟩ := p
    subst hfront
    rw [components_append, List.append_assoc, List.singleton_append, components_append]
    exact congrArg (· ++ _) (List.append_nil _).symm
  · rw [components_append, if_neg hp]

/-! ## Spellings -/

/-- A path and a shorter spelling of it. -/
inductive Respells : Path → Path → Prop where
  | slashes (front rest : Bytes) :
      Respells ⟨front ++ separator :: separator :: rest⟩ ⟨front ++ separator :: rest⟩
  | slashEnd (front : Bytes) (h : front ≠ []) : Respells ⟨front ++ [separator]⟩ ⟨front⟩
  | dot (front rest : Bytes) :
      Respells ⟨front ++ separator :: dot :: separator :: rest⟩ ⟨front ++ separator :: rest⟩
  | dotEnd (front : Bytes) : Respells ⟨front ++ [separator, dot]⟩ ⟨front ++ [separator]⟩

theorem Respells.components {p q : Path} (h : Respells p q) : p.components = q.components := by
  cases h with
  | slashes front rest =>
    rw [components_append, components_append]
    exact congrArg (_ ++ ·) (behind_append [] rest)
  | slashEnd front h =>
    rw [components_append, if_neg h]
    exact List.append_nil _
  | dot front rest =>
    rw [components_append, components_append]
    exact congrArg (_ ++ ·) (behind_append [Path.dot] rest)
  | dotEnd front =>
    rw [components_append, components_append]
    rfl

/-- The shortest spelling of components. -/
def spell : List Component → Bytes
  | [] => []
  | c :: cs => c.spelling ++ cs.flatMap fun c => separator :: c.spelling

open Relation (EqvGen)

/-- A segment without meaning can be left out. -/
theorem eqvGen_idle {front s : Bytes} (hfront : front ≠ []) (hs : s = [] ∨ s = [dot])
    (rest : List Bytes) : EqvGen Respells ⟨front ++ separator :: s ++ rest.flatMap (separator :: ·)⟩
      ⟨front ++ rest.flatMap (separator :: ·)⟩ := by
  cases rest with
  | nil =>
    rw [List.flatMap_nil, List.append_nil, List.append_nil]
    obtain rfl | rfl := hs
    · exact .rel _ _ (.slashEnd front hfront)
    · exact .trans _ _ _ (.rel _ _ (.dotEnd front)) (.rel _ _ (.slashEnd front hfront))
  | cons s' rest =>
    rw [List.flatMap_cons, List.append_assoc]
    obtain rfl | rfl := hs
    · exact .rel _ _ (.slashes front _)
    · exact .rel _ _ (.dot front _)

/-- What is behind a path can be cut down to its components. -/
theorem eqvGen_behind {front : Bytes} (hfront : front ≠ []) (rest : List Bytes) :
    EqvGen Respells ⟨front ++ rest.flatMap (separator :: ·)⟩
      ⟨front ++ (rest.filterMap Component.ofSegment?).flatMap fun c => separator :: c.spelling⟩ := by
  induction rest generalizing front with
  | nil => exact .refl _
  | cons s rest ih =>
    cases hs : Component.ofSegment? s with
    | none =>
      rw [List.filterMap_cons_none hs, List.flatMap_cons, ← List.append_assoc]
      exact .trans _ _ _ (eqvGen_idle hfront (ofSegment?_eq_none hs) rest) (ih hfront)
    | some c =>
      rw [List.filterMap_cons_some hs, List.flatMap_cons, List.flatMap_cons, ← List.append_assoc,
        ← List.append_assoc, (ofSegment?_eq_some hs).1]
      exact ih (by simp)

theorem eqvGen_spell (p : Path) : EqvGen Respells p ⟨spell p.components⟩ := by
  by_cases hp : p.bytes = []
  · obtain ⟨bytes⟩ := p
    subst hp
    exact .refl _
  by_cases habsolute : p.isAbsolute
  · obtain ⟨rest, rfl⟩ := isAbsolute_iff.mp habsolute
    obtain ⟨s, more, hsegments⟩ := List.exists_cons_of_ne_nil (segments_ne_nil rest)
    rw [components_absolute, behind, hsegments]
    have hbytes : separator :: rest = (s :: more).flatMap (separator :: ·) :=
      congrArg (separator :: ·) (eq_of_segments hsegments)
    -- the root is spelled as a slash of its own
    have hroot : EqvGen Respells ⟨separator :: rest⟩ ⟨separator :: separator :: rest⟩ :=
      .symm _ _ (.rel _ _ (.slashes [] rest))
    refine .trans _ _ _ hroot ?_
    rw [hbytes]
    exact eqvGen_behind (List.cons_ne_nil separator []) (s :: more)
  · obtain ⟨c, rest, hsegments, hc, -, hcomponents, -⟩ := relative_cases hp habsolute
    rw [hcomponents]
    obtain ⟨bytes⟩ := p
    obtain rfl := eq_of_segments hsegments
    exact eqvGen_behind hc rest

/-- **Meaning.** Paths mean the same exactly if they can be respelled into each other. -/
theorem same_iff_eqvGen {p q : Path} : p.same q ↔ EqvGen Respells p q := by
  rw [same, decide_eq_true_eq]
  constructor
  · intro h
    exact .trans _ _ _ (eqvGen_spell p) (h ▸ .symm _ _ (eqvGen_spell q))
  · intro h
    induction h with
    | rel _ _ h => exact h.components
    | refl _ => rfl
    | symm _ _ _ ih => exact ih.symm
    | trans _ _ _ _ _ ih ih' => exact ih.trans ih'

end ClangLens.Path
