import ClangLens.Text.Utf8
import ClangLens.Text.Printable

/-!
# Quoted text

The quoted form of texts and byte strings: double quotes around characters that stand for
themselves or as an escape. Stray bytes of a byte string have an escape of their own, so a quoted
byte string shows every byte.
-/

namespace ClangLens.Quoted

/-- The digits of a number in a base. -/
def digits (base n : Nat) : List Char := Nat.toDigits base n

/-- The escape of a character by its number. -/
def numbered (c : Char) : List Char :=
  ['\\', 'u', '\x7b'] ++ digits 16 c.toNat ++ ['\x7d']

/-- A character inside quotes. -/
def escape (c : Char) : List Char :=
  if c = '\x00' then ['\\', '0']
  else if c = '\t' then ['\\', 't']
  else if c = '\r' then ['\\', 'r']
  else if c = '\n' then ['\\', 'n']
  else if c = '\\' then ['\\', '\\']
  else if c = '"' then ['\\', '"']
  else if Printable.needsEscape c then numbered c
  else [c]

/-- A stray byte inside quotes: two upper-case hexadecimal digits. -/
def escapeByte (b : UInt8) : List Char :=
  let digit (n : Nat) : Char := (Nat.digitChar n).toUpper
  ['\\', 'x', digit (b.toNat / 16), digit (b.toNat % 16)]

/-- A piece of a byte string inside quotes. -/
def escapePiece : Utf8.Piece → List Char
  | .char c => escape c
  | .stray bytes => bytes.flatMap escapeByte

/-- A text in quotes. -/
def text (s : String) : String :=
  String.ofList ('"' :: s.toList.flatMap escape ++ ['"'])

/-- A byte string in quotes. -/
def bytes (b : Bytes) : String :=
  String.ofList ('"' :: (Utf8.pieces b).flatMap escapePiece ++ ['"'])

end ClangLens.Quoted
