import ClangLens.Proofs.Decoding
import ClangLens.Proofs.Handover

/-!
# What is shown of stray bytes

Reading bytes as text goes through them once. Where a character is written it is taken. Where none
is, one replacement character stands for the longest stretch that a character could have begun with,
or for a single byte where no character begins so. This says for all bytes what they are read as,
and that nothing else would do.
-/

namespace ClangLens.Utf8

open Request (nul)

/-! ## Stray stretches -/

/-- Some character is written with these bytes first. -/
def Begins (bytes : Bytes) : Prop := ∃ c, bytes <+: String.utf8EncodeChar c

/-- The stretch that is replaced in front of the rest. -/
structure Stray (bad rest : Bytes) : Prop where
  nonempty : bad ≠ []
  /-- No character is written there. -/
  unwritten : ∀ c, ¬String.utf8EncodeChar c <+: bad ++ rest
  begins : bad.length = 1 ∨ Begins bad
  longest : ∀ more, more <+: bad ++ rest → Begins more → more.length ≤ bad.length

/-- The characters that bytes are read as. -/
inductive ReadsAs : Bytes → List Char → Prop where
  | nil : ReadsAs [] []
  | char {c : Char} {rest : Bytes} {cs : List Char} (h : ReadsAs rest cs) :
      ReadsAs (String.utf8EncodeChar c ++ rest) (c :: cs)
  | stray {bad rest : Bytes} {cs : List Char} (hbad : Stray bad rest) (h : ReadsAs rest cs) :
      ReadsAs (bad ++ rest) (replacement :: cs)

theorem Stray.length_pos {bad rest : Bytes} (h : Stray bad rest) : 0 < bad.length :=
  List.length_pos_iff.mpr h.nonempty

/-- There is only one such stretch in front of some bytes. -/
theorem Stray.length_le {bad rest bad' rest' : Bytes} (h : Stray bad rest) (h' : Stray bad' rest')
    (heq : bad ++ rest = bad' ++ rest') : bad'.length ≤ bad.length := by
  rcases h'.begins with hone | hbegins
  · rw [hone]
    exact h.length_pos
  · refine h.longest bad' ?_ hbegins
    rw [heq]
    exact List.prefix_append bad' rest'

theorem Stray.unique {bad rest bad' rest' : Bytes} (h : Stray bad rest) (h' : Stray bad' rest')
    (heq : bad ++ rest = bad' ++ rest') : bad = bad' ∧ rest = rest' :=
  List.append_inj heq (Nat.le_antisymm (h'.length_le h heq.symm) (h.length_le h' heq))

/-- A character is cut off as that character. -/
theorem pieces_encodeChar (c : Char) (rest : Bytes) :
    pieces (String.utf8EncodeChar c ++ rest) = .char c :: pieces rest :=
  piecesFrom_encodeChar c rest

/-- Bytes that are cut off as stray, whatever comes behind the byte that follows them, are the
stretch to be replaced: what a character is written with is never cut off so. -/
theorem stray_of_pieces {bad rest : Bytes} (hne : bad ≠ [])
    (hbegins : bad.length = 1 ∨ Begins bad)
    (h : ∀ more, more.head? = rest.head? → (pieces (bad ++ more)).head? = some (.stray bad)) :
    Stray bad rest where
  nonempty := hne
  unwritten := by
    rintro c ⟨behind, hbehind⟩
    have hhead := h rest rfl
    rw [← hbehind, pieces_encodeChar] at hhead
    cases hhead
  begins := hbegins
  longest := by
    rintro more ⟨behind, hbehind⟩ ⟨c, after, hc⟩
    by_contra hlong
    -- the longer stretch has the next byte too, and so has the character
    obtain ⟨last, rfl⟩ : bad <+: more :=
      List.prefix_of_prefix_length_le ⟨rest, rfl⟩ ⟨behind, hbehind⟩ (by omega)
    obtain ⟨b, last, rfl⟩ : ∃ b after, last = b :: after := by
      refine List.exists_cons_of_ne_nil ?_
      rintro rfl
      simp at hlong
    rw [List.append_assoc] at hbehind hc
    have hrest : b :: last ++ behind = rest := List.append_cancel_left hbehind
    have hhead := h (b :: last ++ after) (hrest ▸ rfl)
    rw [hc, ← List.append_nil (String.utf8EncodeChar c), pieces_encodeChar] at hhead
    cases hhead

/-! ## Started characters -/

/-- A started character that reading gets to by the bytes seen, and that a byte goes on with. -/
structure Partial.Reached (p : Partial) : Prop where
  whole : p.Whole
  ordered : p.low.toNat ≤ p.high.toNat
  path : ∀ rest, pieces (p.seen ++ rest) = piecesFrom (some p) rest

theorem later_ordered : (0x80 : UInt8).toNat ≤ (0xBF : UInt8).toNat := by decide

/-- By induction on the bytes to come: the least byte is taken each time. -/
theorem Partial.Whole.begins {p : Partial} (hp : p.Whole) (ordered : p.low.toNat ≤ p.high.toNat) :
    Begins p.seen := by
  induction hp with
  | @last p _ hbounds hwritten =>
    exact ⟨_, _, (hwritten (p.low.toNat - 128) ⟨by omega, by omega, by omega⟩).symm⟩
  | @more p _ _ hbounds _ ih =>
    obtain ⟨c, hc⟩ := ih (p.low.toNat - 128) ⟨by omega, by omega, by omega⟩ later_ordered
    exact ⟨c, (List.prefix_append _ _).trans hc⟩

theorem Partial.Reached.seen_ne_nil {p : Partial} (hp : p.Reached) : p.seen ≠ [] := by
  intro hnil
  have hpath := hp.path []
  rw [hnil] at hpath
  cases hpath

theorem reached_of_begin {b : UInt8} {p : Partial} (h : begin b = .ok p) : p.Reached := by
  obtain ⟨hwhole, hseen⟩ := begin_whole h
  refine ⟨hwhole, ?_, fun rest => ?_⟩
  · obtain ⟨n, hlow, hhigh, rfl⟩ | ⟨n, hn, rfl⟩ | ⟨n, hn, rfl⟩ := begin_ok_cases h
    · obtain rfl := Except.ok.inj ((begin_two hlow hhigh).symm.trans h)
      exact later_ordered
    · obtain rfl := Except.ok.inj ((begin_three hn).symm.trans h)
      show (if n = 0 then 0xA0 else 0x80 : UInt8).toNat ≤
        (if n = 13 then 0x9F else 0xBF : UInt8).toNat
      split
      · rw [if_neg (by omega)]
        decide
      · split <;> decide
    · obtain rfl := Except.ok.inj ((begin_four hn).symm.trans h)
      show (if n = 0 then 0x90 else 0x80 : UInt8).toNat ≤
        (if n = 4 then 0x8F else 0xBF : UInt8).toNat
      split
      · rw [if_neg (by omega)]
        decide
      · split <;> decide
  · rw [hseen]
    exact piecesFrom_begin h rest

theorem Partial.Reached.push? {p q : Partial} (hp : p.Reached) {b : UInt8}
    (h : p.push? b = some (.ok q)) : q.Reached ∧ q.seen = p.seen ++ [b] := by
  obtain ⟨_, hchar, _⟩ | ⟨_, heq, hwhole, hseen⟩ := hp.whole.push? h
  · cases hchar
  · cases heq
    refine ⟨⟨hwhole, ?_, fun rest => ?_⟩, hseen⟩
    · unfold Partial.push? at h
      split at h
      · dsimp only at h
        split at h
        · cases h
        · cases h
          exact later_ordered
      · cases h
    · rw [hseen, List.append_assoc, List.singleton_append, hp.path]
      exact piecesFrom_more h rest

/-- A started character that the next byte does not go on with is replaced. -/
theorem Partial.Reached.stray {p : Partial} (hp : p.Reached) (rest : Bytes)
    (h : ∀ b ∈ rest.head?, p.push? b = none) :
    Stray p.seen rest ∧ pieces (p.seen ++ rest) = .stray p.seen :: pieces rest := by
  have hcut : ∀ more : Bytes, more.head? = rest.head? →
      pieces (p.seen ++ more) = .stray p.seen :: pieces more := by
    intro more hmore
    rw [hp.path]
    cases more with
    | nil => rfl
    | cons b more => exact piecesFrom_stray (h b (hmore ▸ rfl)) more
  refine ⟨stray_of_pieces hp.seen_ne_nil (.inr (hp.whole.begins hp.ordered)) ?_, hcut rest rfl⟩
  intro more hmore
  rw [hcut more hmore]
  rfl

/-! ## The first piece -/

/-- What is cut off first: a character that is written there, or the stretch that is replaced. -/
inductive FirstCut : Bytes → Prop where
  | char {c : Char} {rest : Bytes} : FirstCut (String.utf8EncodeChar c ++ rest)
  | stray {bad rest : Bytes} (hbad : Stray bad rest)
      (h : pieces (bad ++ rest) = .stray bad :: pieces rest) : FirstCut (bad ++ rest)

/-- By induction on the bytes behind a started character. -/
theorem Partial.Reached.firstCut {p : Partial} (hp : p.Reached) (rest : Bytes) :
    FirstCut (p.seen ++ rest) := by
  induction rest generalizing p with
  | nil =>
    obtain ⟨hbad, hcut⟩ := hp.stray [] (by simp)
    exact .stray hbad hcut
  | cons b rest ih =>
    cases hpush : p.push? b with
    | none =>
      obtain ⟨hbad, hcut⟩ := hp.stray (b :: rest) (by simpa using hpush)
      exact .stray hbad hcut
    | some next =>
      obtain ⟨c, rfl, hc⟩ | ⟨q, rfl, -, -⟩ := hp.whole.push? hpush
      · rw [← List.singleton_append, ← List.append_assoc, ← hc]
        exact .char
      · obtain ⟨hq, hseen⟩ := hp.push? hpush
        rw [← List.singleton_append, ← List.append_assoc, ← hseen]
        exact ih hq

theorem firstCut {bytes : Bytes} (h : bytes ≠ []) : FirstCut bytes := by
  obtain ⟨b, rest, rfl⟩ := List.exists_cons_of_ne_nil h
  cases hbegin : begin b with
  | ok p =>
    have hcut := (reached_of_begin hbegin).firstCut rest
    rwa [(begin_whole hbegin).2] at hcut
  | error piece =>
    have hpiece := begin_piece hbegin
    rw [← List.singleton_append]
    cases piece with
    | char c =>
      rw [← hpiece]
      exact .char
    | stray bad =>
      obtain rfl : bad = [b] := hpiece
      refine .stray (stray_of_pieces (by simp) (.inl rfl) fun more _ => ?_)
        (piecesFrom_error hbegin rest)
      exact congrArg List.head? (piecesFrom_error hbegin more)

/-! ## Reading -/

/-- Whatever is read so is what the pieces show. -/
theorem ReadsAs.map_shown {bytes : Bytes} {cs : List Char} (h : ReadsAs bytes cs) :
    (pieces bytes).map Piece.shown = cs := by
  induction h with
  | nil => rfl
  | char h ih =>
    rw [pieces_encodeChar, List.map_cons, ih]
    rfl
  | @stray bad rest cs hbad h ih =>
    have hcut : pieces (bad ++ rest) = .stray bad :: pieces rest := by
      have hfirst := firstCut (List.append_ne_nil_of_left_ne_nil hbad.nonempty rest)
      generalize heq : bad ++ rest = bytes at hfirst
      cases hfirst with
      | @char c behind => exact absurd ⟨behind, heq.symm⟩ (hbad.unwritten c)
      | stray hbad' hcut =>
        obtain ⟨rfl, rfl⟩ := hbad.unique hbad' heq
        exact hcut
    rw [hcut, List.map_cons, ih]
    rfl

/-- By induction on the length: what is cut off first leaves fewer bytes. -/
theorem readsAs_pieces (bytes : Bytes) : ReadsAs bytes ((pieces bytes).map Piece.shown) := by
  induction hlength : bytes.length using Nat.strongRecOn generalizing bytes with
  | ind n ih =>
    by_cases hne : bytes = []
    · subst hne
      exact .nil
    cases firstCut hne with
    | @char c rest =>
      have hshorter : rest.length < n := by
        rw [← hlength, List.length_append, String.length_utf8EncodeChar]
        exact Nat.lt_add_of_pos_left (Char.utf8Size_pos c)
      rw [pieces_encodeChar]
      exact .char (ih _ hshorter rest rfl)
    | @stray bad rest hbad hcut =>
      have hshorter : rest.length < n := by
        rw [← hlength, List.length_append]
        exact Nat.lt_add_of_pos_left hbad.length_pos
      rw [hcut]
      exact .stray hbad (ih _ hshorter rest rfl)

/-- **Replacing.** What bytes are read as is what the rules say, and nothing else. -/
theorem readsAs_iff {bytes : Bytes} {s : String} : ReadsAs bytes s.toList ↔ lossy bytes = s := by
  constructor
  · intro h
    rw [lossy, h.map_shown, String.ofList_toList]
  · rintro rfl
    rw [lossy, String.toList_ofList]
    exact readsAs_pieces bytes

/-! ## NUL and nothing -/

/-- A character of one byte is read only where that byte is. -/
theorem ReadsAs.ascii_not_mem {bytes : Bytes} {cs : List Char} (h : ReadsAs bytes cs) {c : Char}
    (hc : c.toNat < 128) (hbytes : UInt8.ofNat c.toNat ∉ bytes) : c ∉ cs := by
  induction h with
  | nil => exact List.not_mem_nil
  | char h ih =>
    rw [List.mem_append, not_or] at hbytes
    rw [List.mem_cons, not_or]
    refine ⟨?_, ih hbytes.2⟩
    rintro rfl
    rw [encodeChar_ascii hc, List.mem_singleton] at hbytes
    exact hbytes.1 rfl
  | stray hbad h ih =>
    rw [List.mem_append, not_or] at hbytes
    rw [List.mem_cons, not_or]
    refine ⟨?_, ih hbytes.2⟩
    rintro rfl
    exact absurd hc (by decide)

theorem ReadsAs.nul_not_mem {bytes : Bytes} {cs : List Char} (h : ReadsAs bytes cs)
    (hbytes : 0 ∉ bytes) : nul ∉ cs :=
  h.ascii_not_mem (by decide) hbytes

/-- Bytes are read as nothing only where there are none. -/
theorem lossy_eq_empty_iff {bytes : Bytes} : lossy bytes = "" ↔ bytes = [] := by
  rw [← readsAs_iff]
  constructor
  · intro h
    cases h
    rfl
  · rintro rfl
    exact .nil

end ClangLens.Utf8
