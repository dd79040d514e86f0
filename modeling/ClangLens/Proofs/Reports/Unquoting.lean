import ClangLens.Proofs.Reports.Lines
import ClangLens.Text.Quoted

/-!
# Reading quoted text

Quoted text is read from left to right: a character stands for itself, a backslash announces an
escape, and the first quote behind the opening one that is not announced closes the text. So what
was quoted is read back whatever it holds, and quoted text is within one line.
-/

namespace ClangLens.Quoted

/-! ## The reader -/

/-- What is being read. -/
inductive Reading where
  | plain
  /-- What a backslash announces. -/
  | escape
  /-- The brace in front of a number. -/
  | brace
  /-- The digits of a number, of which some have been read. -/
  | number (n : ℕ)

def digitValue? (c : Char) : Option ℕ :=
  if '0' ≤ c ∧ c ≤ '9' then some (c.toNat - 48)
  else if 'a' ≤ c ∧ c ≤ 'f' then some (c.toNat - 87)
  else none

/-- The character that a letter behind a backslash stands for. -/
def escaped? (c : Char) : Option Char :=
  if c = '0' then some '\x00'
  else if c = 't' then some '\t'
  else if c = 'r' then some '\r'
  else if c = 'n' then some '\n'
  else if c = '\\' ∨ c = '"' then some c
  else none

/-- The characters up to the closing quote, behind which there is nothing. -/
def readFrom : Reading → List Char → Option (List Char)
  | _, [] => none
  | .plain, c :: rest =>
    if c = '"' then if rest = [] then some [] else none
    else if c = '\\' then readFrom .escape rest
    else (readFrom .plain rest).map (c :: ·)
  | .escape, c :: rest =>
    if c = 'u' then readFrom .brace rest
    else do return (← escaped? c) :: (← readFrom .plain rest)
  | .brace, c :: rest => if c = '\x7b' then readFrom (.number 0) rest else none
  | .number n, c :: rest =>
    if c = '\x7d' then (readFrom .plain rest).map (Char.ofNat n :: ·)
    else do readFrom (.number (16 * n + (← digitValue? c))) rest

/-- What is quoted in a text, if it is a quoted text. -/
def read? (s : String) : Option String :=
  if s.toList.head? = some '"' then (readFrom .plain s.toList.tail).map String.ofList else none

/-! ## Numbers -/

theorem digitValue?_digitChar : ∀ d < 16, digitValue? (Nat.digitChar d) = some d := by decide

theorem digitChar_ne : ∀ d < 16, Nat.digitChar d ≠ '\x7d' ∧ Nat.digitChar d ≠ '\n' := by decide

theorem readFrom_digit (n : ℕ) {d : ℕ} (h : d < 16) (rest : List Char) :
    readFrom (.number n) (d.digitChar :: rest) = readFrom (.number (16 * n + d)) rest := by
  rw [readFrom, if_neg (digitChar_ne d h).1, digitValue?_digitChar d h]
  rfl

/-- By induction on the number, whose last digit is read last. -/
theorem readFrom_digits (n : ℕ) (rest : List Char) :
    readFrom (.number 0) (Nat.toDigits 16 n ++ rest) = readFrom (.number n) rest := by
  induction n using Nat.strongRecOn generalizing rest with
  | ind n ih =>
    rw [Nat.toDigits_eq_if (by decide)]
    split
    next h => simpa using readFrom_digit 0 h rest
    next h =>
      rw [List.append_assoc, ih (n / 16) (by omega), List.singleton_append,
        readFrom_digit _ (by omega), Nat.div_add_mod]

theorem readFrom_numbered (c : Char) (rest : List Char) :
    readFrom .plain (numbered c ++ rest) = (readFrom .plain rest).map (c :: ·) := by
  calc readFrom .plain (numbered c ++ rest)
    _ = readFrom (.number 0) (Nat.toDigits 16 c.toNat ++ '\x7d' :: rest) := by
        simp [numbered, digits, readFrom]
    _ = readFrom (.number c.toNat) ('\x7d' :: rest) := readFrom_digits _ _
    _ = (readFrom .plain rest).map (c :: ·) := by rw [readFrom, if_pos rfl, Char.ofNat_toNat]

/-! ## Texts -/

/-- A character behind a backslash. -/
theorem readFrom_escaped {c e : Char} (hu : e ≠ 'u') (he : escaped? e = some c) (rest : List Char) :
    readFrom .plain ('\\' :: e :: rest) = (readFrom .plain rest).map (c :: ·) := by
  rw [readFrom, if_neg (by decide), if_pos rfl, readFrom, if_neg hu, he]
  cases readFrom .plain rest <;> rfl

theorem readFrom_escape (c : Char) (rest : List Char) :
    readFrom .plain (escape c ++ rest) = (readFrom .plain rest).map (c :: ·) := by
  unfold escape
  split_ifs with hnul htab hreturn hfeed hslash hquote
  · exact readFrom_escaped (by decide) (by rw [hnul]; rfl) rest
  · exact readFrom_escaped (by decide) (by rw [htab]; rfl) rest
  · exact readFrom_escaped (by decide) (by rw [hreturn]; rfl) rest
  · exact readFrom_escaped (by decide) (by rw [hfeed]; rfl) rest
  · exact readFrom_escaped (by decide) (by rw [hslash]; rfl) rest
  · exact readFrom_escaped (by decide) (by rw [hquote]; rfl) rest
  · exact readFrom_numbered c rest
  · rw [List.singleton_append, readFrom, if_neg hquote, if_neg hslash]

theorem readFrom_escapes (cs : List Char) :
    readFrom .plain (cs.flatMap escape ++ ['"']) = some cs := by
  induction cs with
  | nil => rfl
  | cons c cs ih =>
    rw [List.flatMap_cons, List.append_assoc, readFrom_escape, ih]
    rfl

/-- **Reading quoted text.** A text is read back from its quoted form. -/
theorem read?_text (s : String) : read? (text s) = some s := by
  rw [text, read?, String.toList_ofList, List.cons_append, List.head?_cons, if_pos rfl,
    List.tail_cons, readFrom_escapes, Option.map_some, String.ofList_toList]

/-! ## Lines -/

theorem feed_not_mem_digits (n : ℕ) : '\n' ∉ digits 16 n := by
  unfold digits
  induction n using Nat.strongRecOn with
  | ind n ih =>
    rw [Nat.toDigits_eq_if (by decide)]
    split
    next h =>
      rw [List.mem_singleton]
      exact (digitChar_ne n h).2.symm
    next h =>
      rw [List.mem_append, List.mem_singleton, not_or]
      exact ⟨ih (n / 16) (by omega), (digitChar_ne (n % 16) (by omega)).2.symm⟩

theorem feed_not_mem_numbered (c : Char) : '\n' ∉ numbered c := by
  simp [numbered, feed_not_mem_digits]

theorem feed_not_mem_escape (c : Char) : '\n' ∉ escape c := by
  unfold escape
  split_ifs with hnul htab hreturn hfeed hslash hquote
  any_goals decide
  · exact feed_not_mem_numbered c
  · simpa using Ne.symm hfeed

/-- Quoted text is within one line. -/
theorem oneLine_text (s : String) : OneLine (text s) := by
  have hescapes : '\n' ∉ s.toList.flatMap escape := by
    rw [List.mem_flatMap]
    rintro ⟨c, -, h⟩
    exact feed_not_mem_escape c h
  simpa [OneLine, text] using hescapes

end ClangLens.Quoted
