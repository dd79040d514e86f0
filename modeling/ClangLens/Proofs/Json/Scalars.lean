import ClangLens.Json.Reading
import ClangLens.Proofs.Encoding
import ClangLens.Proofs.Json.Grammar

/-!
# Blanks, strings and numbers read back

Reading goes over bytes, and the characters with a meaning are one byte each. So a character
between quotes is read either as its bytes, each of which stands for itself, or as escapes that
come together to it; the parts of the text then make up the bytes of the string. A number is read
to its end because what may follow a value continues none.
-/

namespace ClangLens.Json

open Utf8

theorem encodeChars_ascii {c : Char} (h : c.toNat < 128) (t : List Char) :
    encodeChars (c :: t) = byte c :: encodeChars t := by
  rw [encodeChars_cons, encodeChar_ascii h]
  rfl

/-- A fact about some values, checked for each of them. -/
theorem forall_mem_of_all {α : Type} {p : α → Prop} [DecidablePred p] {l : List α}
    (h : l.all fun a => decide (p a)) : ∀ a ∈ l, p a := by simpa using h

/-! ## Blanks -/

theorem blank_byte : ∀ c ∈ [' ', '\n', '\t', '\r'], c.toNat < 128 ∧ isBlank (byte c) = true :=
  forall_mem_of_all (by decide)

theorem skipBlank_cons {b : UInt8} (h : isBlank b = false) (rest : Bytes) :
    skipBlank (b :: rest) = b :: rest := List.dropWhile_cons_of_neg (by rw [h]; exact Bool.false_ne_true)

theorem skipBlank_blank {t : List Char} (h : Blank t) (rest : Bytes) :
    skipBlank (encodeChars t ++ rest) = skipBlank rest := by
  induction t with
  | nil => rfl
  | cons c t ih =>
    obtain ⟨hc, ht⟩ := List.forall_mem_cons.mp h
    obtain ⟨hascii, hblank⟩ := blank_byte c hc
    rw [encodeChars_ascii hascii, List.cons_append, skipBlank, List.dropWhile_cons_of_pos hblank]
    exact ih ht

/-! ## Strings -/

theorem literal_quote (rest : Bytes) : literal (byte '"' :: rest) = (⟨[], none⟩, rest) := by
  rw [literal.eq_def]
  exact if_pos rfl

theorem literal_byte {b : UInt8} (hquote : b ≠ byte '"') (hbackslash : b ≠ byte '\\')
    (hcontrol : ¬ b < byte ' ') (rest : Bytes) :
    literal (b :: rest) = Literal.cons (.byte b) (literal rest) := by
  rw [literal.eq_def]
  simp only [if_neg hquote, if_neg hbackslash, if_neg hcontrol]

theorem literal_short {e b : UInt8} (he : e ≠ byte 'u') (h : shortEscape? e = some b)
    (rest : Bytes) :
    literal (byte '\\' :: e :: rest) = Literal.cons (.byte b) (literal rest) := by
  have hplain : byte '\\' ≠ byte '"' := by decide
  rw [literal.eq_def]
  simp only [if_neg hplain, if_true, if_neg he, h]

theorem literal_unit {a b c d : UInt8} {n : Nat} (h : hex4? a b c d = some n) (rest : Bytes) :
    literal (byte '\\' :: byte 'u' :: a :: b :: c :: d :: rest) =
      Literal.cons (.unit n) (literal rest) := by
  have hplain : byte '\\' ≠ byte '"' := by decide
  rw [literal.eq_def]
  simp only [if_neg hplain, if_true, h]

/-- A literal with parts in front. -/
def Literal.prepend (parts : List Part) (l : Literal × Bytes) : Literal × Bytes :=
  parts.foldr Literal.cons l

theorem Literal.prepend_eq (parts : List Part) (l : Literal × Bytes) :
    Literal.prepend parts l = (⟨parts ++ l.1.parts, l.1.stop⟩, l.2) := by
  induction parts with
  | nil => rfl
  | cons part parts ih =>
    show Literal.cons part (Literal.prepend parts l) = _
    rw [ih]
    rfl

theorem literal_bytes {bs : Bytes}
    (h : ∀ b ∈ bs, b ≠ byte '"' ∧ b ≠ byte '\\' ∧ ¬ b < byte ' ') (rest : Bytes) :
    literal (bs ++ rest) = Literal.prepend (bs.map .byte) (literal rest) := by
  induction bs with
  | nil => rfl
  | cons b bs ih =>
    obtain ⟨⟨hquote, hbackslash, hcontrol⟩, hbs⟩ := List.forall_mem_cons.mp h
    rw [List.cons_append, literal_byte hquote hbackslash hcontrol, ih hbs]
    rfl

theorem Literal.bytes_bytes (stop : Option Stop) (bs : Bytes) (more : List Part) :
    Literal.bytes stop (bs.map .byte ++ more) = (Literal.bytes stop more).map (bs ++ ·) := by
  induction bs with
  | nil =>
    show Literal.bytes stop more = _
    cases Literal.bytes stop more <;> rfl
  | cons b bs ih =>
    rw [List.map_cons, List.cons_append, Literal.bytes, ih]
    cases Literal.bytes stop more <;> rfl

/-- What is read of the text of a character: parts that make up its bytes. -/
def ReadAs (c : Char) (t : List Char) (parts : List Part) : Prop :=
  (∀ rest, literal (encodeChars t ++ rest) = Literal.prepend parts (literal rest)) ∧
    ∀ stop more, Literal.bytes stop (parts ++ more) =
      (Literal.bytes stop more).map (String.utf8EncodeChar c ++ ·)

theorem byte_ne {c d : Char} (hc : c.toNat < 128) (hd : d.toNat < 128) (h : c ≠ d) :
    byte c ≠ byte d := by
  intro heq
  have hnat : (byte c).toNat = (byte d).toNat := by rw [heq]
  rw [byte, byte, Nat.toUInt8_eq, Nat.toUInt8_eq, toNat_ofNat_of_lt (by omega),
    toNat_ofNat_of_lt (by omega)] at hnat
  exact h (Char.toNat_inj.mp hnat)

theorem readAs_raw {c : Char} (hquote : c ≠ '"') (hbackslash : c ≠ '\\')
    (hcontrol : 0x20 ≤ c.toNat) : ReadAs c [c] ((String.utf8EncodeChar c).map .byte) := by
  refine ⟨fun rest => ?_, fun stop more => Literal.bytes_bytes stop _ more⟩
  have hbytes : ∀ b ∈ String.utf8EncodeChar c,
      b ≠ byte '"' ∧ b ≠ byte '\\' ∧ ¬ b < byte ' ' := by
    intro b hb
    by_cases hascii : c.toNat < 128
    · rw [encodeChar_ascii hascii, List.mem_singleton] at hb
      subst hb
      refine ⟨byte_ne hascii (by decide) hquote, byte_ne hascii (by decide) hbackslash, ?_⟩
      rw [UInt8.lt_iff_toNat_lt, toNat_ofNat_of_lt (by omega)]
      show ¬ c.toNat < 32
      omega
    · have hge := le_of_mem_encodeChar (by omega) hb
      refine ⟨?_, ?_, ?_⟩
      · rintro rfl
        exact absurd hge (by decide)
      · rintro rfl
        exact absurd hge (by decide)
      · rw [UInt8.lt_iff_toNat_lt]
        show ¬ b.toNat < 32
        omega
  have hone : encodeChars [c] = String.utf8EncodeChar c := List.append_nil _
  rw [hone, literal_bytes hbytes]

theorem shortEscape_letter : ∀ p ∈ shortEscapes, p.1.toNat < 128 ∧ p.2.toNat < 128 ∧
    byte p.1 ≠ byte 'u' ∧ shortEscape? (byte p.1) = some (byte p.2) :=
  forall_mem_of_all (by decide)

theorem readAs_short {letter c : Char} (h : (letter, c) ∈ shortEscapes) :
    ReadAs c ['\\', letter] [.byte (byte c)] := by
  obtain ⟨hletter, hc, hu, hescape⟩ := shortEscape_letter _ h
  refine ⟨fun rest => ?_, fun stop more => ?_⟩
  · rw [encodeChars_ascii (by decide), encodeChars_ascii hletter]
    exact literal_short hu hescape rest
  · rw [encodeChar_ascii hc]
    exact Literal.bytes_bytes stop [byte c] more

theorem hexDigit?_small : ∀ d < 16, (Nat.digitChar d).toNat < 128 ∧
    hexDigit? (byte (Nat.digitChar d)) = some d := by decide

theorem hexDigit?_capital : ∀ d < 16, (Nat.digitChar d).toUpper.toNat < 128 ∧
    hexDigit? (byte (Nat.digitChar d).toUpper) = some d := by decide

theorem SpellsDigit.read {d : Nat} {c : Char} (h : SpellsDigit d c) :
    c.toNat < 128 ∧ hexDigit? (byte c) = some d := by
  obtain ⟨hd, rfl | rfl⟩ := h
  · exact hexDigit?_small d hd
  · exact hexDigit?_capital d hd

theorem SpellsUnit.read {n : Nat} {t : List Char} (h : SpellsUnit n t) (rest : Bytes) :
    literal (encodeChars t ++ rest) = Literal.cons (.unit n) (literal rest) := by
  cases h with
  | mk h₁ h₂ h₃ h₄ =>
    rw [encodeChars_ascii (by decide), encodeChars_ascii (by decide), encodeChars_ascii h₁.read.1,
      encodeChars_ascii h₂.read.1, encodeChars_ascii h₃.read.1, encodeChars_ascii h₄.read.1]
    refine literal_unit ?_ rest
    rw [hex4?, h₁.read.2, h₂.read.2, h₃.read.2, h₄.read.2]
    rfl

/-- A character of its own is no half of a pair. -/
theorem isLow_isHigh_toNat (c : Char) : isLow c.toNat = false ∧ isHigh c.toNat = false := by
  have hvalid : c.toNat < 0xD800 ∨ 0xDFFF < c.toNat ∧ c.toNat < 0x110000 := c.valid
  simp only [isLow, isHigh, Bool.and_eq_false_iff, decide_eq_false_iff_not]
  omega

theorem readAs_unit {c : Char} {t : List Char} (h : SpellsUnit c.toNat t) :
    ReadAs c t [.unit c.toNat] := by
  refine ⟨h.read, fun stop more => ?_⟩
  obtain ⟨hlow, hhigh⟩ := isLow_isHigh_toNat c
  rw [List.singleton_append, Literal.bytes.eq_def]
  simp only [hlow, hhigh, if_false, Bool.false_eq_true, Char.ofNat_toNat]
  cases Literal.bytes stop more <;> rfl

theorem readAs_pair {c : Char} {high low : Nat} {t u : List Char}
    (hc : c.toNat = 0x10000 + high * 0x400 + low) (hhigh : high < 0x400) (hlow : low < 0x400)
    (ht : SpellsUnit (0xD800 + high) t) (hu : SpellsUnit (0xDC00 + low) u) :
    ReadAs c (t ++ u) [.unit (0xD800 + high), .unit (0xDC00 + low)] := by
  refine ⟨fun rest => ?_, fun stop more => ?_⟩
  · rw [encodeChars_append, List.append_assoc, ht.read, hu.read]
    rfl
  · have hfirst : isLow (0xD800 + high) = false ∧ isHigh (0xD800 + high) = true := by
      simp only [isLow, isHigh, Bool.and_eq_false_iff, Bool.and_eq_true, decide_eq_true_eq,
        decide_eq_false_iff_not]
      omega
    have hsecond : isLow (0xDC00 + low) = true := by
      simp only [isLow, Bool.and_eq_true, decide_eq_true_eq]
      omega
    have hpaired : paired (0xD800 + high) (0xDC00 + low) = c := by
      rw [paired, Nat.add_sub_cancel_left, Nat.add_sub_cancel_left, ← hc, Char.ofNat_toNat]
    simp only [List.cons_append, List.nil_append, Literal.bytes]
    rw [if_neg (by simp [hfirst.1]), if_pos hfirst.2, if_pos hsecond, hpaired]
    cases Literal.bytes stop more <;> rfl

/-- **One character.** However it is spelled, it is read as parts that make up its bytes. -/
theorem SpellsChar.read {c : Char} {t : List Char} (h : SpellsChar c t) :
    ∃ parts, ReadAs c t parts := by
  cases h with
  | raw hquote hbackslash hcontrol => exact ⟨_, readAs_raw hquote hbackslash hcontrol⟩
  | short h => exact ⟨_, readAs_short h⟩
  | unit h => exact ⟨_, readAs_unit h⟩
  | pair hc hhigh hlow ht hu => exact ⟨_, readAs_pair hc hhigh hlow ht hu⟩

theorem SpellsChars.read {cs t : List Char} (h : SpellsChars cs t) :
    ∃ parts, Literal.bytes none parts = .ok (encodeChars cs) ∧
      ∀ rest, literal (encodeChars t ++ byte '"' :: rest) = (⟨parts, none⟩, rest) := by
  induction h with
  | nil => exact ⟨[], rfl, literal_quote⟩
  | cons hc _ ih =>
    obtain ⟨parts, hbytes, hread⟩ := ih
    obtain ⟨front, hfront, hchar⟩ := hc.read
    refine ⟨front ++ parts, ?_, fun rest => ?_⟩
    · rw [hchar, hbytes, encodeChars_cons]
      rfl
    · rw [encodeChars_append, List.append_assoc, hfront, hread, Literal.prepend_eq]

/-- **Strings.** A spelled string is read as a literal with its text. -/
theorem SpellsString.read {s : String} {t : List Char} (h : SpellsString s t) :
    ∃ u l, t = '"' :: u ∧ l.stop = none ∧ l.text = .ok s ∧
      ∀ rest, literal (encodeChars u ++ rest) = (l, rest) := by
  cases h with
  | mk h =>
    obtain ⟨parts, hbytes, hread⟩ := h.read
    refine ⟨_, ⟨parts, none⟩, List.cons_append, rfl, ?_, fun rest => ?_⟩
    · have hdecode : decode? (encodeChars s.toList) = some s := decode?_encode s
      rw [Literal.text, hbytes]
      simp only [bind, Except.bind, hdecode]
      rfl
    · rw [encodeChars_append, encodeChars_ascii (by decide), List.append_assoc]
      exact hread rest

/-! ## Numbers -/

/-- What may follow a value. -/
def Ends (rest : Bytes) : Prop :=
  ∀ b ∈ rest.head?, b ∈ [' ', '\n', '\t', '\r', ',', ']', '\x7d'].map byte

theorem ends_nil : Ends [] := fun b hb => by simp at hb

theorem ends_cons {c : Char} (h : c ∈ [',', ']', '\x7d']) (rest : Bytes) :
    Ends (byte c :: rest) := by
  intro b hb
  obtain rfl : byte c = b := Option.some.inj hb
  exact List.mem_map_of_mem (List.mem_append_right [' ', '\n', '\t', '\r'] h)

theorem ends_blank {t : List Char} (h : Blank t) {rest : Bytes} (hrest : Ends rest) :
    Ends (encodeChars t ++ rest) := by
  cases t with
  | nil => exact hrest
  | cons c t =>
    obtain ⟨hc, -⟩ := List.forall_mem_cons.mp h
    rw [encodeChars_ascii (blank_byte c hc).1]
    intro b hb
    obtain rfl : byte c = b := Option.some.inj hb
    exact List.mem_map_of_mem (List.mem_append_left [',', ']', '\x7d'] hc)

/-- No digits go on here. -/
def NoDigit (rest : Bytes) : Prop := ∀ b ∈ rest.head?, isDigit b = false

theorem end_byte : ∀ c ∈ [' ', '\n', '\t', '\r', ',', ']', '\x7d'], isDigit (byte c) = false ∧
    byte c ≠ byte '.' ∧ byte c ≠ byte 'e' ∧ byte c ≠ byte 'E' := forall_mem_of_all (by decide)

theorem Ends.byte {b : UInt8} {rest : Bytes} (h : Ends (b :: rest)) :
    isDigit b = false ∧ b ≠ Json.byte '.' ∧ b ≠ Json.byte 'e' ∧ b ≠ Json.byte 'E' := by
  obtain ⟨c, hc, rfl⟩ := List.mem_map.mp (h b rfl)
  exact end_byte c hc

theorem Ends.noDigit {rest : Bytes} (h : Ends rest) : NoDigit rest := by
  cases rest with
  | nil => exact fun b hb => by simp at hb
  | cons b rest =>
    intro d hd
    obtain rfl : b = d := Option.some.inj hd
    exact h.byte.1

theorem digit_byte : ∀ d < 10, (Nat.digitChar d).toNat < 128 ∧
    isDigit (byte (Nat.digitChar d)) = true ∧ digit (byte (Nat.digitChar d)) = d := by decide

theorem SpellsDigits.read {ds : List Nat} {t : List Char} (h : SpellsDigits ds t) {rest : Bytes}
    (hrest : NoDigit rest) : digits (encodeChars t ++ rest) = (ds, rest) := by
  cases h with
  | mk hsome hsmall =>
    clear hsome
    induction ds with
    | nil =>
      cases rest with
      | nil => rfl
      | cons b rest =>
        have hb : ¬ isDigit b = true := by
          rw [hrest b rfl]
          exact Bool.false_ne_true
        show digits (b :: rest) = _
        rw [digits, List.takeWhile_cons_of_neg hb, List.dropWhile_cons_of_neg hb]
        rfl
    | cons d ds ih =>
      obtain ⟨hd, hds⟩ := List.forall_mem_cons.mp hsmall
      obtain ⟨hascii, hdigit, hvalue⟩ := digit_byte d hd
      obtain ⟨htake, hdrop⟩ := Prod.ext_iff.mp (ih hds)
      simp only [digits] at htake hdrop
      rw [List.map_cons, encodeChars_ascii hascii, List.cons_append, digits,
        List.takeWhile_cons_of_pos hdigit, List.dropWhile_cons_of_pos hdigit, List.map_cons,
        hvalue, htake, hdrop]

theorem SpellsDigits.head {ds : List Nat} {t : List Char} (h : SpellsDigits ds t) :
    ∃ d u, d < 10 ∧ t = Nat.digitChar d :: u := by
  cases h with
  | mk hsome hsmall =>
    cases ds with
    | nil => exact absurd rfl hsome
    | cons d ds => exact ⟨d, _, hsmall d List.mem_cons_self, rfl⟩

theorem SpellsDigits.ne_nil {ds : List Nat} {t : List Char} (h : SpellsDigits ds t) : ds ≠ [] := by
  cases h with
  | mk hsome hsmall => exact hsome

/-- The sign of an exponent, and what follows it. -/
def signOf : Bytes → Bool × Bytes
  | [] => (false, [])
  | s :: more =>
    if s = byte '+' then (false, more)
    else if s = byte '-' then (true, more)
    else (false, s :: more)

theorem SpellsSign.read {negative : Bool} {ds : List Nat} {t u : List Char}
    (h : SpellsSign negative t) (hds : SpellsDigits ds u) (rest : Bytes) :
    signOf (encodeChars t ++ (encodeChars u ++ rest)) = (negative, encodeChars u ++ rest) := by
  cases h with
  | absent =>
    -- the first digit is no sign
    obtain ⟨d, u, hd, rfl⟩ := hds.head
    have hplain : ∀ d < 10, byte (Nat.digitChar d) ≠ byte '+' ∧
        byte (Nat.digitChar d) ≠ byte '-' := by decide
    rw [encodeChars_ascii (digit_byte d hd).1]
    exact (if_neg (hplain d hd).1).trans (if_neg (hplain d hd).2)
  | plus =>
    rw [encodeChars_ascii (by decide)]
    show signOf (byte '+' :: (encodeChars u ++ rest)) = _
    rw [signOf, if_pos rfl]
  | minus =>
    have hne : byte '-' ≠ byte '+' := by decide
    rw [encodeChars_ascii (by decide)]
    show signOf (byte '-' :: (encodeChars u ++ rest)) = _
    rw [signOf, if_neg hne, if_pos rfl]

theorem exponentOf_letter {n : Numeral} {b : UInt8} {rest after behind : Bytes} {negative : Bool}
    {ds : List Nat} (hb : b = byte 'e' ∨ b = byte 'E') (hsign : signOf rest = (negative, after))
    (hdigits : digits after = (ds, behind)) (hds : ds ≠ []) :
    exponentOf n (b :: rest) =
      (.number { n with exponent := some (negative, ds) } none, behind) := by
  rw [exponentOf.eq_def]
  dsimp only
  rw [if_pos (by simpa using hb)]
  cases rest with
  | nil =>
    obtain rfl : false = negative := congrArg Prod.fst hsign
    obtain rfl : [] = after := congrArg Prod.snd hsign
    simp only [hdigits, if_neg hds]
  | cons s more =>
    have hmatch : (if s = byte '+' then (false, more) else if s = byte '-' then (true, more)
        else (false, s :: more)) = (negative, after) := hsign
    simp only [hmatch, hdigits, if_neg hds]

section

variable {negative : Bool} {whole : List Nat} {rest : Bytes}

theorem SpellsExponent.read {fraction : Option (List Nat)} {exponent : Option (Bool × List Nat)}
    {t : List Char} (h : SpellsExponent exponent t) (hrest : Ends rest) :
    exponentOf ⟨negative, whole, fraction, none⟩ (encodeChars t ++ rest) =
      (.number ⟨negative, whole, fraction, exponent⟩ none, rest) := by
  cases h with
  | absent =>
    show exponentOf _ rest = _
    cases rest with
    | nil => rfl
    | cons b rest =>
      obtain ⟨-, -, he, hE⟩ := hrest.byte
      rw [exponentOf.eq_def]
      exact if_neg (by simp [he, hE])
  | @present e _ ds t u he hsign hds =>
    have hletter : e.toNat < 128 ∧ (byte e = byte 'e' ∨ byte e = byte 'E') := by
      obtain rfl | rfl := he
      · exact ⟨by decide, .inl rfl⟩
      · exact ⟨by decide, .inr rfl⟩
    rw [List.cons_append, encodeChars_ascii hletter.1, List.cons_append, encodeChars_append,
      List.append_assoc]
    exact exponentOf_letter hletter.2 (hsign.read hds rest) (hds.read hrest.noDigit) hds.ne_nil

/-- What follows the digits in front of an exponent. -/
theorem SpellsExponent.head {exponent : Option (Bool × List Nat)} {t : List Char}
    (h : SpellsExponent exponent t) (hrest : Ends rest) :
    ∀ b ∈ (encodeChars t ++ rest).head?, isDigit b = false ∧ b ≠ byte '.' := by
  intro b hb
  cases h with
  | absent =>
    cases rest with
    | nil => simp [encodeChars] at hb
    | cons d rest =>
      obtain rfl : d = b := Option.some.inj hb
      exact ⟨hrest.byte.1, hrest.byte.2.1⟩
  | present he hsign h =>
    obtain rfl | rfl := he
    · obtain rfl : byte 'e' = b := Option.some.inj hb
      decide
    · obtain rfl : byte 'E' = b := Option.some.inj hb
      decide

theorem fractionOf_exponent (n : Numeral) {text : Bytes} (h : ∀ b ∈ text.head?, b ≠ byte '.') :
    fractionOf n text = exponentOf n text := by
  cases text with
  | nil => rfl
  | cons b rest => exact if_neg (h b rfl)

theorem SpellsFraction.read {fraction : Option (List Nat)}
    {exponent : Option (Bool × List Nat)} {t u : List Char} (h : SpellsFraction fraction t)
    (hexponent : SpellsExponent exponent u) (hrest : Ends rest) :
    fractionOf ⟨negative, whole, none, none⟩ (encodeChars (t ++ u) ++ rest) =
      (.number ⟨negative, whole, fraction, exponent⟩ none, rest) := by
  have hhead := hexponent.head hrest
  cases h with
  | absent =>
    rw [List.nil_append, fractionOf_exponent _ fun b hb => (hhead b hb).2]
    exact hexponent.read hrest
  | @present ds t h =>
    have hdigits := h.read fun b hb => (hhead b hb).1
    rw [List.cons_append, encodeChars_ascii (by decide), encodeChars_append, List.cons_append,
      List.append_assoc, fractionOf.eq_def]
    simp only [if_true, hdigits, if_neg h.ne_nil]
    exact hexponent.read hrest

/-- What follows the whole part of a number. -/
theorem SpellsFraction.noDigit {fraction : Option (List Nat)}
    {exponent : Option (Bool × List Nat)} {t u : List Char} (h : SpellsFraction fraction t)
    (hexponent : SpellsExponent exponent u) (hrest : Ends rest) :
    NoDigit (encodeChars (t ++ u) ++ rest) := by
  intro b hb
  cases h with
  | absent => exact (hexponent.head hrest b hb).1
  | present h =>
    obtain rfl : byte '.' = b := Option.some.inj hb
    decide

end

/-- **Numbers.** A spelled number is read as its numeral, the sign aside. -/
theorem SpellsNumber.read {n : Numeral} {t : List Char} (h : SpellsNumber n t) :
    ∃ d u, d < 10 ∧ t = (if n.negative then ['-'] else []) ++ Nat.digitChar d :: u ∧
      ∀ rest, Ends rest →
        numberOf n.negative (encodeChars (Nat.digitChar d :: u) ++ rest) =
          (.number n none, rest) := by
  cases h with
  | @mk t u v hwhole hzero hfraction hexponent =>
    obtain ⟨negative, whole, fraction, exponent⟩ := n
    obtain ⟨d, t', hd, rfl⟩ := hwhole.head
    refine ⟨d, t' ++ (u ++ v), hd, by simp, fun rest hrest => ?_⟩
    have hdigits := hwhole.read (hfraction.noDigit hexponent hrest)
    rw [← List.cons_append, encodeChars_append, List.append_assoc, numberOf, hdigits]
    dsimp only at hwhole hzero ⊢
    split
    · exact absurd rfl hwhole.ne_nil
    · exact hfraction.read hexponent hrest
    · next more hmore => exact absurd (List.cons.inj (hzero rfl)).2 hmore
    · exact hfraction.read hexponent hrest

end ClangLens.Json
