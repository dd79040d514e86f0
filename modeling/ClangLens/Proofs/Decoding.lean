import ClangLens.Proofs.Encoding

/-!
# Bytes that are a text

Bytes without a stray one are the bytes of exactly one text. A started character is followed up to
its last byte: whatever bytes it still takes, they are those that the character is written with.
So a byte string either is written from a text, or decoding refuses it.
-/

namespace ClangLens.Utf8

/-! ## The bytes of a number -/

theorem val_ofNat {v : Nat} (h : v.isValidChar) : (Char.ofNat v).val.toNat = v := by
  unfold Char.ofNat
  rw [dif_pos h]
  rfl

theorem encodeChar_ofNat_one {v : Nat} (h : v < 128) :
    String.utf8EncodeChar (Char.ofNat v) = [UInt8.ofNat v] := by
  have hv : (Char.ofNat v).toNat = v := val_ofNat (.inl (by omega))
  rw [encodeChar_ascii (by omega), hv]

theorem encodeChar_ofNat_two {v : Nat} (hlow : 128 ≤ v) (hhigh : v < 2048) :
    String.utf8EncodeChar (Char.ofNat v) =
      [UInt8.ofNat (v / 64 + 192), UInt8.ofNat (v % 64 + 128)] := by
  unfold String.utf8EncodeChar
  rw [val_ofNat (.inl (by omega))]
  dsimp only
  rw [if_neg (by omega), if_pos (by omega), Nat.mod_eq_of_lt (by omega : v / 64 < 32)]

theorem encodeChar_ofNat_three {v : Nat} (hlow : 2048 ≤ v) (hhigh : v < 65536)
    (hpair : v < 0xD800 ∨ 0xDFFF < v) :
    String.utf8EncodeChar (Char.ofNat v) =
      [UInt8.ofNat (v / 4096 + 224), UInt8.ofNat (v / 64 % 64 + 128),
        UInt8.ofNat (v % 64 + 128)] := by
  have hvalid : v.isValidChar := hpair.imp id fun h => ⟨h, by omega⟩
  unfold String.utf8EncodeChar
  rw [val_ofNat hvalid]
  dsimp only
  rw [if_neg (by omega), if_neg (by omega), if_pos (by omega),
    Nat.mod_eq_of_lt (by omega : v / 4096 < 16)]

theorem encodeChar_ofNat_four {v : Nat} (hlow : 65536 ≤ v) (hhigh : v < 0x110000) :
    String.utf8EncodeChar (Char.ofNat v) =
      [UInt8.ofNat (v / 262144 + 240), UInt8.ofNat (v / 4096 % 64 + 128),
        UInt8.ofNat (v / 64 % 64 + 128), UInt8.ofNat (v % 64 + 128)] := by
  have hvalid : v.isValidChar := .inr ⟨by omega, hhigh⟩
  unfold String.utf8EncodeChar
  rw [val_ofNat hvalid]
  dsimp only
  rw [if_neg (by omega), if_neg (by omega), if_neg (by omega),
    Nat.mod_eq_of_lt (by omega : v / 262144 < 8)]

/-! ## Started characters -/

/-- The bytes that a started character may go on with. -/
def Partial.Allows (p : Partial) (n : Nat) : Prop :=
  n < 64 ∧ p.low.toNat ≤ n + 128 ∧ n + 128 ≤ p.high.toNat

/-- However a started character is finished, it is written with the bytes it was read from. -/
inductive Partial.Whole : Partial → Prop where
  | last {p : Partial} (hleft : p.left = 0) (hbounds : 128 ≤ p.low.toNat ∧ p.high.toNat < 192)
      (h : ∀ n, p.Allows n → String.utf8EncodeChar (Char.ofNat (p.value * 64 + n)) =
        p.seen ++ [UInt8.ofNat (n + 128)]) : Whole p
  | more {p : Partial} {left : Nat} (hleft : p.left = left + 1)
      (hbounds : 128 ≤ p.low.toNat ∧ p.high.toNat < 192)
      (h : ∀ n, p.Allows n →
        Whole ⟨p.seen ++ [UInt8.ofNat (n + 128)], p.value * 64 + n, left, 0x80, 0xBF⟩) : Whole p

/-- A byte that is taken adds six bits. -/
theorem exists_of_push? {p : Partial} {b : UInt8} {r : Except Piece Partial}
    (hbounds : 128 ≤ p.low.toNat ∧ p.high.toNat < 192) (h : p.push? b = some r) :
    ∃ n, p.Allows n ∧ b = UInt8.ofNat (n + 128) := by
  unfold Partial.push? at h
  split at h
  · rename_i hfits
    simp only [Bool.and_eq_true, decide_eq_true_eq, UInt8.le_iff_toNat_le] at hfits
    refine ⟨b.toNat - 128, ⟨by omega, by omega, by omega⟩, ?_⟩
    rw [Nat.sub_add_cancel (by omega), UInt8.ofNat_toNat]
  · exact nomatch h

/-- A taken byte finishes a character written with the bytes read, or starts a longer one. -/
theorem Partial.Whole.push? {p : Partial} (hp : p.Whole) {b : UInt8} {r : Except Piece Partial}
    (h : p.push? b = some r) :
    (∃ c, r = .error (.char c) ∧ String.utf8EncodeChar c = p.seen ++ [b]) ∨
      ∃ q : Partial, r = .ok q ∧ q.Whole ∧ q.seen = p.seen ++ [b] := by
  cases hp with
  | last hleft hbounds hwritten =>
    obtain ⟨n, hn, rfl⟩ := exists_of_push? hbounds h
    obtain rfl := Option.some.inj ((push?_last hn.1 hn.2.1 hn.2.2 hleft).symm.trans h)
    exact .inl ⟨_, rfl, hwritten n hn⟩
  | more hleft hbounds hwhole =>
    obtain ⟨n, hn, rfl⟩ := exists_of_push? hbounds h
    obtain rfl := Option.some.inj ((push?_more hn.1 hn.2.1 hn.2.2 hleft).symm.trans h)
    exact .inr ⟨_, rfl, hwhole n hn, rfl⟩

/-! ## First bytes -/

theorem later_bounds : 128 ≤ (0x80 : UInt8).toNat ∧ (0xBF : UInt8).toNat < 192 := by decide

/-- A first byte of a longer character: its upper bits, and bounds that leave out overlong forms,
halves of pairs and numbers that are too large. -/
theorem begin_ok_cases {b : UInt8} {p : Partial} (h : begin b = .ok p) :
    (∃ n, 2 ≤ n ∧ n < 32 ∧ b = UInt8.ofNat (n + 192)) ∨
      (∃ n < 16, b = UInt8.ofNat (n + 224)) ∨ ∃ n ≤ 4, b = UInt8.ofNat (n + 240) := by
  have hback : ∀ k, k ≤ b.toNat → b = UInt8.ofNat (b.toNat - k + k) := fun k hk => by
    rw [Nat.sub_add_cancel hk, UInt8.ofNat_toNat]
  by_cases hsmall : b.toNat < 194
  · unfold begin at h
    dsimp only at h
    by_cases hone : b.toNat < 0x80
    · rw [if_pos hone] at h
      exact nomatch h
    · rw [if_neg hone, if_pos hsmall] at h
      exact nomatch h
  by_cases htwo : b.toNat < 224
  · exact .inl ⟨_, by omega, by omega, hback 192 (by omega)⟩
  by_cases hthree : b.toNat < 240
  · exact .inr (.inl ⟨_, by omega, hback 224 (by omega)⟩)
  by_cases hfour : b.toNat ≤ 244
  · exact .inr (.inr ⟨_, by omega, hback 240 (by omega)⟩)
  · unfold begin at h
    dsimp only at h
    rw [if_neg (by omega), if_neg (by omega), if_neg (by omega), if_neg (by omega),
      if_neg (by omega), if_neg (by omega), if_neg (by omega), if_neg (by omega),
      if_neg (by omega)] at h
    exact nomatch h

theorem whole_two {n : Nat} (hlow : 2 ≤ n) (hhigh : n < 32) :
    Partial.Whole ⟨[UInt8.ofNat (n + 192)], n, 0, 0x80, 0xBF⟩ := by
  refine .last rfl later_bounds ?_
  rintro m ⟨hm, -, -⟩
  show String.utf8EncodeChar (Char.ofNat (n * 64 + m)) = _
  rw [encodeChar_ofNat_two (by omega) (by omega), show (n * 64 + m) / 64 = n by omega,
    show (n * 64 + m) % 64 = m by omega]
  rfl

theorem whole_three {n : Nat} (hn : n < 16) :
    Partial.Whole ⟨[UInt8.ofNat (n + 224)], n, 1,
      if n = 0 then 0xA0 else 0x80, if n = 13 then 0x9F else 0xBF⟩ := by
  refine .more rfl ?_ ?_
  · constructor
    · dsimp only
      split <;> decide
    · dsimp only
      split <;> decide
  rintro m ⟨hm, hmlow, hmhigh⟩
  refine .last rfl later_bounds ?_
  rintro k ⟨hk, -, -⟩
  have hover : n = 0 → 32 ≤ m := by
    intro hzero
    dsimp only at hmlow
    rw [if_pos hzero] at hmlow
    have hvalue : (0xA0 : UInt8).toNat = 160 := rfl
    omega
  have hpair : n = 13 → m < 32 := by
    intro hzero
    dsimp only at hmhigh
    rw [if_pos hzero] at hmhigh
    have hvalue : (0x9F : UInt8).toNat = 159 := rfl
    omega
  show String.utf8EncodeChar (Char.ofNat ((n * 64 + m) * 64 + k)) = _
  rw [encodeChar_ofNat_three (by omega) (by omega) (by omega),
    show ((n * 64 + m) * 64 + k) / 4096 = n by omega,
    show ((n * 64 + m) * 64 + k) / 64 % 64 = m by omega,
    show ((n * 64 + m) * 64 + k) % 64 = k by omega]
  rfl

theorem whole_four {n : Nat} (hn : n ≤ 4) :
    Partial.Whole ⟨[UInt8.ofNat (n + 240)], n, 2,
      if n = 0 then 0x90 else 0x80, if n = 4 then 0x8F else 0xBF⟩ := by
  refine .more rfl ?_ ?_
  · constructor
    · dsimp only
      split <;> decide
    · dsimp only
      split <;> decide
  rintro m ⟨hm, hmlow, hmhigh⟩
  have hover : n = 0 → 16 ≤ m := by
    intro hzero
    dsimp only at hmlow
    rw [if_pos hzero] at hmlow
    have hvalue : (0x90 : UInt8).toNat = 144 := rfl
    omega
  have hlarge : n = 4 → m < 16 := by
    intro hzero
    dsimp only at hmhigh
    rw [if_pos hzero] at hmhigh
    have hvalue : (0x8F : UInt8).toNat = 143 := rfl
    omega
  refine .more rfl later_bounds ?_
  rintro k ⟨hk, -, -⟩
  refine .last rfl later_bounds ?_
  rintro j ⟨hj, -, -⟩
  show String.utf8EncodeChar (Char.ofNat (((n * 64 + m) * 64 + k) * 64 + j)) = _
  rw [encodeChar_ofNat_four (by omega) (by omega),
    show (((n * 64 + m) * 64 + k) * 64 + j) / 262144 = n by omega,
    show (((n * 64 + m) * 64 + k) * 64 + j) / 4096 % 64 = m by omega,
    show (((n * 64 + m) * 64 + k) * 64 + j) / 64 % 64 = k by omega,
    show (((n * 64 + m) * 64 + k) * 64 + j) % 64 = j by omega]
  rfl

theorem begin_whole {b : UInt8} {p : Partial} (h : begin b = .ok p) : p.Whole ∧ p.seen = [b] := by
  obtain ⟨n, hlow, hhigh, rfl⟩ | ⟨n, hn, rfl⟩ | ⟨n, hn, rfl⟩ := begin_ok_cases h
  · obtain rfl := Except.ok.inj ((begin_two hlow hhigh).symm.trans h)
    exact ⟨whole_two hlow hhigh, rfl⟩
  · obtain rfl := Except.ok.inj ((begin_three hn).symm.trans h)
    exact ⟨whole_three hn, rfl⟩
  · obtain rfl := Except.ok.inj ((begin_four hn).symm.trans h)
    exact ⟨whole_four hn, rfl⟩

/-- The bytes that a piece was cut from. -/
def Piece.bytes : Piece → Bytes
  | .char c => String.utf8EncodeChar c
  | .stray bytes => bytes

theorem begin_piece {b : UInt8} {piece : Piece} (h : begin b = .error piece) :
    piece.bytes = [b] := by
  by_cases hone : b.toNat < 128
  · have hbegin := begin_one hone
    rw [UInt8.ofNat_toNat, h] at hbegin
    obtain rfl := Except.error.inj hbegin
    rw [Piece.bytes, encodeChar_ofNat_one hone, UInt8.ofNat_toNat]
  · unfold begin at h
    dsimp only at h
    rw [if_neg hone] at h
    repeat' split at h
    all_goals cases h
    all_goals rfl

/-! ## Texts -/

theorem piecesFrom_error {b : UInt8} {piece : Piece} (h : begin b = .error piece) (rest : Bytes) :
    piecesFrom none (b :: rest) = piece :: piecesFrom none rest := by
  rw [piecesFrom, h]

/-- A byte that does not continue a started character leaves stray what was read of it. -/
theorem piecesFrom_stray {p : Partial} {b : UInt8} (h : p.push? b = none) (rest : Bytes) :
    piecesFrom (some p) (b :: rest) = .stray p.seen :: piecesFrom none (b :: rest) := by
  conv => lhs; rw [piecesFrom, h]
  cases hbegin : begin b with
  | error piece => rw [piecesFrom_error hbegin]
  | ok q => rw [piecesFrom_begin hbegin]

/-- The pieces that follow a start have its bytes and the rest, in order. -/
theorem flatMap_piecesFrom (start : Option Partial) (hstart : ∀ p ∈ start, p.Whole) (rest : Bytes) :
    (piecesFrom start rest).flatMap Piece.bytes = start.elim [] Partial.seen ++ rest := by
  induction rest generalizing start with
  | nil =>
    cases start with
    | none => rfl
    | some p => simp [piecesFrom, Piece.bytes]
  | cons b rest ih =>
    have hnone := ih none (by simp)
    have hsome : ∀ {q : Partial}, q.Whole →
        (piecesFrom (some q) rest).flatMap Piece.bytes = q.seen ++ rest := fun {q} hq =>
      ih (some q) fun _ hp => Option.some.inj hp ▸ hq
    -- a byte that continues nothing begins a piece or a character of its own
    have hbegin : (piecesFrom none (b :: rest)).flatMap Piece.bytes = b :: rest := by
      cases hb : begin b with
      | error piece =>
        rw [piecesFrom_error hb, List.flatMap_cons, begin_piece hb, hnone]
        rfl
      | ok q =>
        obtain ⟨hq, hseen⟩ := begin_whole hb
        rw [piecesFrom_begin hb, hsome hq, hseen]
        rfl
    cases start with
    | none => exact hbegin
    | some p =>
      cases hpush : p.push? b with
      | none =>
        rw [piecesFrom_stray hpush, List.flatMap_cons, hbegin]
        rfl
      | some r =>
        obtain ⟨c, rfl, hc⟩ | ⟨q, rfl, hq, hseen⟩ := (hstart p rfl).push? hpush
        · rw [piecesFrom_last hpush, List.flatMap_cons, Piece.bytes, hc, hnone]
          simp
        · rw [piecesFrom_more hpush, hsome hq, hseen]
          simp

/-- **Pieces.** Cutting bytes into characters and stray stretches loses none of them. -/
theorem flatMap_pieces (bytes : Bytes) : (pieces bytes).flatMap Piece.bytes = bytes :=
  flatMap_piecesFrom none (by simp) bytes

/-- Pieces that are all characters are cut from the bytes of these. -/
theorem eq_encodeChars_of_pieces {bytes : Bytes} {cs : List Char}
    (h : pieces bytes = cs.map Piece.char) : bytes = encodeChars cs := by
  rw [← flatMap_pieces bytes, h, List.flatMap_map]
  rfl

theorem mapM_char?_eq_some {pieces : List Piece} {cs : List Char} :
    pieces.mapM Piece.char? = some cs ↔ pieces = cs.map Piece.char := by
  have hpiece : ∀ (piece : Piece) c, piece.char? = some c ↔ piece = .char c := by
    intro piece c
    cases piece <;> simp [Piece.char?]
  induction pieces generalizing cs with
  | nil => cases cs <;> simp
  | cons piece pieces ih =>
    rw [List.mapM_cons]
    cases cs with
    | nil => simp [Option.bind_eq_some_iff]
    | cons c cs => simp [Option.bind_eq_some_iff, hpiece, ih]

/-- Bytes decode exactly if none of their pieces is stray. -/
theorem isSome_decode?_iff {bytes : Bytes} :
    (decode? bytes).isSome ↔ ∀ piece ∈ pieces bytes, piece.char?.isSome := by
  rw [decode?, Option.isSome_map]
  induction pieces bytes with
  | nil => simp
  | cons piece rest ih =>
    rw [List.mapM_cons, List.forall_mem_cons, ← ih]
    cases piece.char? <;> cases rest.mapM Piece.char? <;> simp

/-- **Bytes of a text.** Bytes decode to a text exactly if they are the bytes of that text. -/
theorem decode?_eq_some_iff {bytes : Bytes} {s : String} :
    decode? bytes = some s ↔ bytes = encode s := by
  constructor
  · intro h
    obtain ⟨cs, hcs, rfl⟩ := Option.map_eq_some_iff.mp h
    rw [eq_encodeChars_of_pieces (mapM_char?_eq_some.mp hcs), encode, String.toList_ofList]
    rfl
  · rintro rfl
    exact decode?_encode s

/-- Nothing is replaced in bytes that are a text. -/
theorem lossy_of_decode? {bytes : Bytes} {s : String} (h : decode? bytes = some s) :
    lossy bytes = s := by
  obtain ⟨cs, hcs, rfl⟩ := Option.map_eq_some_iff.mp h
  rw [lossy, mapM_char?_eq_some.mp hcs, List.map_map]
  exact congrArg String.ofList (List.map_id cs)

theorem lossy_encode (s : String) : lossy (encode s) = s := lossy_of_decode? (decode?_encode s)

end ClangLens.Utf8
