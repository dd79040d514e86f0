import ClangLens.Text.Utf8

/-!
# Texts as bytes

The bytes of a text are cut into exactly its characters, so they decode to the text again. A
character in front decides nothing about what follows it. An ASCII byte is that of one character
only, so cutting the bytes of a text there cuts the text. The digits of a number say the number.
-/

namespace ClangLens

section

variable {b : UInt8} {bytes front : Bytes}

theorem takeWhile_ne_append (h : b ∉ front) (behind : Bytes) :
    (front ++ behind).takeWhile (· ≠ b) = front ++ behind.takeWhile (· ≠ b) :=
  List.takeWhile_append_of_pos fun c hc => decide_eq_true fun hb : c = b => h (hb ▸ hc)

/-- Bytes up to the first of a kind. -/
theorem takeWhile_ne (h : b ∉ front) (behind : Bytes) :
    (front ++ b :: behind).takeWhile (· ≠ b) = front := by
  rw [takeWhile_ne_append h]
  simp

theorem takeWhile_ne_eq_self (h : b ∉ bytes) : bytes.takeWhile (· ≠ b) = bytes := by
  have htake := takeWhile_ne_append h []
  rwa [List.takeWhile_nil, List.append_nil] at htake

end

/-- A number is read back from its digits. -/
theorem ofDigitChars_toString (n : Nat) : Nat.ofDigitChars 10 (toString n).toList 0 = n := by
  rw [Nat.toString_eq_ofList_toDigits, String.toList_ofList, Nat.ofDigitChars_ten_toDigits]

theorem isDigit_of_mem_toString {n : Nat} {c : Char} (h : c ∈ (toString n).toList) :
    c.isDigit := by
  rw [Nat.toString_eq_ofList_toDigits, String.toList_ofList] at h
  exact Nat.isDigit_of_mem_toDigits (by decide) (by decide) h

theorem toString_toList_inj {n m : Nat} (h : (toString n).toList = (toString m).toList) :
    n = m := by
  rw [← ofDigitChars_toString n, h, ofDigitChars_toString]

namespace Utf8

/-! ## One character -/

theorem toNat_ofNat_of_lt {n : Nat} (h : n < 256) : (UInt8.ofNat n).toNat = n :=
  UInt8.toNat_ofNat_of_lt' h

/-- A later byte within the bounds adds six bits. -/
theorem push?_eq {p : Partial} {n : Nat} (hn : n < 64) (hlow : p.low.toNat ≤ n + 128)
    (hhigh : n + 128 ≤ p.high.toNat) :
    p.push? (UInt8.ofNat (n + 128)) = some (
      match p.left with
      | 0 => .error (.char (Char.ofNat (p.value * 64 + n)))
      | left + 1 =>
        .ok ⟨p.seen ++ [UInt8.ofNat (n + 128)], p.value * 64 + n, left, 0x80, 0xBF⟩) := by
  have hb : (UInt8.ofNat (n + 128)).toNat = n + 128 := toNat_ofNat_of_lt (by omega)
  have hfits : p.low ≤ UInt8.ofNat (n + 128) ∧ UInt8.ofNat (n + 128) ≤ p.high := by
    rw [UInt8.le_iff_toNat_le, UInt8.le_iff_toNat_le, hb]
    exact ⟨hlow, hhigh⟩
  unfold Partial.push?
  rw [if_pos (by simpa using hfits), hb, Nat.add_sub_cancel]
  cases p.left <;> rfl

theorem push?_more {p : Partial} {n left : Nat} (hn : n < 64) (hlow : p.low.toNat ≤ n + 128)
    (hhigh : n + 128 ≤ p.high.toNat) (hleft : p.left = left + 1) :
    p.push? (UInt8.ofNat (n + 128)) =
      some (.ok ⟨p.seen ++ [UInt8.ofNat (n + 128)], p.value * 64 + n, left, 0x80, 0xBF⟩) := by
  rw [push?_eq hn hlow hhigh, hleft]

theorem push?_last {p : Partial} {n : Nat} (hn : n < 64) (hlow : p.low.toNat ≤ n + 128)
    (hhigh : n + 128 ≤ p.high.toNat) (hleft : p.left = 0) :
    p.push? (UInt8.ofNat (n + 128)) =
      some (.error (.char (Char.ofNat (p.value * 64 + n)))) := by
  rw [push?_eq hn hlow hhigh, hleft]

theorem begin_one {n : Nat} (hn : n < 128) :
    begin (UInt8.ofNat n) = .error (.char (Char.ofNat n)) := by
  unfold begin
  rw [toNat_ofNat_of_lt (by omega)]
  exact if_pos hn

/-- What is seen after the first byte of a longer character: its upper bits, and bounds for the
next byte that leave out overlong forms, halves of pairs and numbers that are too large. -/
theorem begin_two {n : Nat} (hlow : 2 ≤ n) (hhigh : n < 32) :
    begin (UInt8.ofNat (n + 192)) = .ok ⟨[UInt8.ofNat (n + 192)], n, 0, 0x80, 0xBF⟩ := by
  unfold begin
  rw [toNat_ofNat_of_lt (by omega)]
  dsimp only
  rw [if_neg (by omega), if_neg (by omega), if_pos (by omega)]
  simp

theorem begin_three {n : Nat} (hn : n < 16) :
    begin (UInt8.ofNat (n + 224)) = .ok ⟨[UInt8.ofNat (n + 224)], n, 1,
      if n = 0 then 0xA0 else 0x80, if n = 13 then 0x9F else 0xBF⟩ := by
  unfold begin
  rw [toNat_ofNat_of_lt (by omega)]
  dsimp only
  rw [if_neg (by omega), if_neg (by omega), if_neg (by omega)]
  by_cases h0 : n = 0
  · subst h0
    rfl
  by_cases h13 : n = 13
  · subst h13
    rfl
  rw [if_neg (by omega), if_neg (by omega), if_pos (by omega), if_neg h0, if_neg h13]
  simp

theorem begin_four {n : Nat} (hn : n ≤ 4) :
    begin (UInt8.ofNat (n + 240)) = .ok ⟨[UInt8.ofNat (n + 240)], n, 2,
      if n = 0 then 0x90 else 0x80, if n = 4 then 0x8F else 0xBF⟩ := by
  unfold begin
  rw [toNat_ofNat_of_lt (by omega)]
  dsimp only
  rw [if_neg (by omega), if_neg (by omega), if_neg (by omega), if_neg (by omega),
    if_neg (by omega), if_neg (by omega)]
  by_cases h0 : n = 0
  · subst h0
    rfl
  by_cases h4 : n = 4
  · subst h4
    rfl
  rw [if_neg (by omega), if_pos (by omega), if_neg h0, if_neg h4]
  simp

theorem piecesFrom_begin {b : UInt8} {p : Partial} (h : begin b = .ok p) (rest : Bytes) :
    piecesFrom none (b :: rest) = piecesFrom (some p) rest := by
  rw [piecesFrom, h]

theorem piecesFrom_more {p q : Partial} {b : UInt8} (h : p.push? b = some (.ok q))
    (rest : Bytes) : piecesFrom (some p) (b :: rest) = piecesFrom (some q) rest := by
  rw [piecesFrom, h]

theorem piecesFrom_last {p : Partial} {b : UInt8} {piece : Piece}
    (h : p.push? b = some (.error piece)) (rest : Bytes) :
    piecesFrom (some p) (b :: rest) = piece :: piecesFrom none rest := by
  rw [piecesFrom, h]

/-- **One character.** Its bytes are cut off as that character. -/
theorem piecesFrom_encodeChar (c : Char) (rest : Bytes) :
    piecesFrom none (String.utf8EncodeChar c ++ rest) = .char c :: piecesFrom none rest := by
  have hvalid : c.val.toNat < 0xD800 ∨ 0xDFFF < c.val.toNat ∧ c.val.toNat < 0x110000 := c.valid
  have hback : Char.ofNat c.val.toNat = c := Char.ofNat_toNat c
  unfold String.utf8EncodeChar
  generalize c.val.toNat = v at hvalid hback
  dsimp only
  by_cases h1 : v ≤ 127
  · rw [if_pos h1, List.singleton_append, piecesFrom, begin_one (by omega), hback]
  by_cases h2 : v ≤ 2047
  · have hvalue : v / 64 % 32 * 64 + v % 64 = v := by omega
    rw [if_neg h1, if_pos h2]
    simp only [List.cons_append, List.nil_append]
    rw [piecesFrom_begin (begin_two (by omega) (by omega)),
      piecesFrom_last (push?_last (by omega) (by simp) (by simp; omega) rfl), hvalue, hback]
  by_cases h3 : v ≤ 65535
  · have hvalue : (v / 4096 % 16 * 64 + v / 64 % 64) * 64 + v % 64 = v := by omega
    rw [if_neg h1, if_neg h2, if_pos h3]
    simp only [List.cons_append, List.nil_append]
    have hlow : (if v / 4096 % 16 = 0 then (0xA0 : UInt8) else 0x80).toNat ≤ v / 64 % 64 + 128 := by
      split
      · show 160 ≤ _
        omega
      · show 128 ≤ _
        omega
    have hhigh : v / 64 % 64 + 128 ≤ (if v / 4096 % 16 = 13 then (0x9F : UInt8) else 0xBF).toNat := by
      split
      · show _ ≤ 159
        omega
      · show _ ≤ 191
        omega
    rw [piecesFrom_begin (begin_three (by omega)),
      piecesFrom_more (push?_more (by omega) hlow hhigh rfl),
      piecesFrom_last (push?_last (by omega) (by simp) (by simp; omega) rfl), hvalue, hback]
  · have hvalue : ((v / 262144 % 8 * 64 + v / 4096 % 64) * 64 + v / 64 % 64) * 64 + v % 64 = v := by
      omega
    rw [if_neg h1, if_neg h2, if_neg h3]
    simp only [List.cons_append, List.nil_append]
    have hlow : (if v / 262144 % 8 = 0 then (0x90 : UInt8) else 0x80).toNat ≤
        v / 4096 % 64 + 128 := by
      split
      · show 144 ≤ _
        omega
      · show 128 ≤ _
        omega
    have hhigh : v / 4096 % 64 + 128 ≤
        (if v / 262144 % 8 = 4 then (0x8F : UInt8) else 0xBF).toNat := by
      split
      · show _ ≤ 143
        omega
      · show _ ≤ 191
        omega
    rw [piecesFrom_begin (begin_four (by omega)),
      piecesFrom_more (push?_more (by omega) hlow hhigh rfl),
      piecesFrom_more (push?_more (by omega) (by simp) (by simp; omega) rfl),
      piecesFrom_last (push?_last (by omega) (by simp) (by simp; omega) rfl), hvalue, hback]

/-- An ASCII character is one byte. -/
theorem encodeChar_ascii {c : Char} (h : c.toNat < 128) :
    String.utf8EncodeChar c = [UInt8.ofNat c.toNat] := by
  have hle : c.val.toNat ≤ 127 := Nat.le_of_lt_succ h
  unfold String.utf8EncodeChar
  exact if_pos hle

/-- No byte of another character is an ASCII one. -/
theorem le_of_mem_encodeChar {c : Char} {b : UInt8} (h : 128 ≤ c.toNat)
    (hb : b ∈ String.utf8EncodeChar c) : 128 ≤ b.toNat := by
  have hle : ¬ c.val.toNat ≤ 127 := Nat.not_le_of_lt h
  have hpart : ∀ n lead : Nat, 128 ≤ lead → n + lead < 256 →
      128 ≤ (UInt8.ofNat (n + lead)).toNat := by
    intro n lead hlead hn
    rw [toNat_ofNat_of_lt hn]
    omega
  unfold String.utf8EncodeChar at hb
  generalize c.val.toNat = v at hb hle
  dsimp only at hb
  rw [if_neg hle] at hb
  split at hb
  · simp only [List.mem_cons, List.not_mem_nil, or_false] at hb
    obtain rfl | rfl := hb <;> exact hpart _ _ (by decide) (by omega)
  split at hb
  · simp only [List.mem_cons, List.not_mem_nil, or_false] at hb
    obtain rfl | rfl | rfl := hb <;> exact hpart _ _ (by decide) (by omega)
  · simp only [List.mem_cons, List.not_mem_nil, or_false] at hb
    obtain rfl | rfl | rfl | rfl := hb <;> exact hpart _ _ (by decide) (by omega)

/-- An ASCII byte is that of its own character only. -/
theorem eq_of_mem_encodeChar {c d : Char} (hc : c.toNat < 128)
    (h : UInt8.ofNat c.toNat ∈ String.utf8EncodeChar d) : d = c := by
  have hbyte : (UInt8.ofNat c.toNat).toNat = c.toNat := toNat_ofNat_of_lt (by omega)
  have hd : d.toNat < 128 := by
    refine Nat.lt_of_not_le fun hd => ?_
    have hle := le_of_mem_encodeChar hd h
    omega
  rw [encodeChar_ascii hd, List.mem_singleton] at h
  rw [← Char.ofNat_toNat c, ← hbyte, h, toNat_ofNat_of_lt (by omega), Char.ofNat_toNat]

/-! ## Texts -/

/-- The bytes of characters. -/
def encodeChars (cs : List Char) : Bytes := cs.flatMap String.utf8EncodeChar

theorem encodeChars_cons (c : Char) (cs : List Char) :
    encodeChars (c :: cs) = String.utf8EncodeChar c ++ encodeChars cs := List.flatMap_cons

theorem encodeChars_append (cs ds : List Char) :
    encodeChars (cs ++ ds) = encodeChars cs ++ encodeChars ds := List.flatMap_append

theorem piecesFrom_encodeChars (cs : List Char) (rest : Bytes) :
    piecesFrom none (encodeChars cs ++ rest) = cs.map Piece.char ++ piecesFrom none rest := by
  induction cs with
  | nil => rfl
  | cons c cs ih =>
    rw [encodeChars_cons, List.append_assoc, piecesFrom_encodeChar, ih]
    rfl

/-- Characters have at least as many bytes. -/
theorem length_le_length_encodeChars (cs : List Char) : cs.length ≤ (encodeChars cs).length := by
  induction cs with
  | nil => exact Nat.le_refl 0
  | cons c cs ih =>
    have hpos : 0 < (String.utf8EncodeChar c).length := by
      rw [String.length_utf8EncodeChar]
      exact Char.utf8Size_pos c
    rw [encodeChars_cons, List.length_append, List.length_cons]
    omega

/-- The bytes of an ASCII character are those of no other, so what is in front of them and what is
behind them are the bytes of whole characters. -/
theorem exists_of_encodeChars_eq_append {c : Char} (hc : c.toNat < 128) {cs : List Char}
    {front behind : Bytes} (h : encodeChars cs = front ++ UInt8.ofNat c.toNat :: behind) :
    ∃ ds es, cs = ds ++ c :: es ∧ front = encodeChars ds ∧ behind = encodeChars es := by
  induction cs generalizing front with
  | nil => exact absurd (congrArg List.length h) (by simp [encodeChars])
  | cons d cs ih =>
    have hmore : ∀ rest, front = String.utf8EncodeChar d ++ rest →
        encodeChars cs = rest ++ UInt8.ofNat c.toNat :: behind → ∃ ds es, d :: cs = ds ++ c :: es ∧
          front = encodeChars ds ∧ behind = encodeChars es := by
      intro rest hfront hrest
      obtain ⟨ds, es, rfl, rfl, rfl⟩ := ih hrest
      exact ⟨d :: ds, es, rfl, hfront.trans (encodeChars_cons d ds).symm, rfl⟩
    rw [encodeChars_cons] at h
    by_cases hd : d = c
    · subst hd
      rw [encodeChar_ascii hc] at h hmore
      cases front with
      | nil => exact ⟨[], cs, rfl, rfl, (List.cons.inj h).2.symm⟩
      | cons b front =>
        obtain ⟨rfl, hrest⟩ := List.cons.inj h
        exact hmore front rfl hrest
    · rcases List.append_eq_append_iff.mp h with ⟨rest, hfront, hrest⟩ | ⟨rest, hchar, hrest⟩
      · exact hmore rest hfront hrest
      cases rest with
      | nil => exact hmore [] (by simpa using hchar.symm) hrest.symm
      | cons b rest =>
        -- no other character has that byte
        obtain ⟨rfl, -⟩ := List.cons.inj hrest
        exact absurd (eq_of_mem_encodeChar hc (by simp [hchar])) hd

/-- **Texts.** The bytes of a text decode to the text. -/
theorem decode?_encode (s : String) : decode? (encode s) = some s := by
  have hpieces : pieces (encode s) = s.toList.map Piece.char := by
    have h := piecesFrom_encodeChars s.toList []
    rw [List.append_nil, piecesFrom, List.append_nil] at h
    exact h
  have hchars : (s.toList.map Piece.char).mapM Piece.char? = some s.toList := by
    induction s.toList with
    | nil => rfl
    | cons c cs ih =>
      rw [List.map_cons, List.mapM_cons, ih]
      rfl
  rw [decode?, hpieces, hchars, Option.map_some, String.ofList_toList]

theorem encode_inj {s t : String} (h : encode s = encode t) : s = t := by
  have hdecode := congrArg decode? h
  rw [decode?_encode, decode?_encode] at hdecode
  exact Option.some.inj hdecode

theorem encode_eq_nil_iff {s : String} : encode s = [] ↔ s = "" :=
  ⟨fun h => encode_inj (t := "") h, fun h => h ▸ rfl⟩

theorem encode_append (s t : String) : encode (s ++ t) = encode s ++ encode t := by
  rw [encode, String.toList_append]
  exact encodeChars_append s.toList t.toList

theorem encode_ofList (cs : List Char) : encode (String.ofList cs) = encodeChars cs := by
  rw [encode, String.toList_ofList]
  rfl

/-- A text is cut at an ASCII character where its bytes are. -/
theorem exists_of_encode_eq_append {c : Char} (hc : c.toNat < 128) {s : String}
    {front behind : Bytes} (h : encode s = front ++ UInt8.ofNat c.toNat :: behind) :
    ∃ t u : String,
      s.toList = t.toList ++ c :: u.toList ∧ front = encode t ∧ behind = encode u := by
  obtain ⟨ds, es, hs, rfl, rfl⟩ := exists_of_encodeChars_eq_append hc h
  refine ⟨.ofList ds, .ofList es, ?_, (encode_ofList ds).symm, (encode_ofList es).symm⟩
  rw [hs, String.toList_ofList, String.toList_ofList]

/-- An ASCII character is in a text where its byte is. -/
theorem mem_of_byte_mem_encode {c : Char} (hc : c.toNat < 128) {s : String}
    (h : UInt8.ofNat c.toNat ∈ encode s) : c ∈ s.toList := by
  obtain ⟨front, behind, hs, -⟩ := List.eq_append_cons_of_mem h
  obtain ⟨t, u, hchars, -⟩ := exists_of_encode_eq_append hc hs
  rw [hchars]
  exact List.mem_append_right _ List.mem_cons_self

end Utf8

end ClangLens
