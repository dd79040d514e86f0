/-!
# Bytes read as text

A byte string is cut once into characters and ill-formed stretches; a stretch is as long as its
bytes could still have become a character. Every reading of bytes as text is a fold over that one
cut: `decode?` refuses a stretch, `lossy` puts one replacement character in its place.
-/

namespace ClangLens

/-- A string of bytes, as file names and foreign text are kept. -/
abbrev Bytes := List UInt8

namespace Utf8

/-- A piece of a byte string: one character, or bytes that make none. -/
inductive Piece where
  | char (c : Char)
  | stray (bytes : Bytes)
deriving DecidableEq

/-- A character whose later bytes are still to come. -/
structure Partial where
  /-- The bytes read so far. -/
  seen : Bytes
  /-- The bits read so far. -/
  value : Nat
  /-- How many bytes follow the next one. -/
  left : Nat
  /-- The least next byte that keeps the character alive. -/
  low : UInt8
  /-- The greatest such byte. -/
  high : UInt8

/-- What a first byte promises: a whole character, the start of a longer one, or nothing. -/
def begin (b : UInt8) : Except Piece Partial :=
  let n := b.toNat
  if n < 0x80 then .error (.char (Char.ofNat n))
  else if n < 0xC2 then .error (.stray [b])
  else if n < 0xE0 then .ok ⟨[b], n - 0xC0, 0, 0x80, 0xBF⟩
  else if n = 0xE0 then .ok ⟨[b], 0, 1, 0xA0, 0xBF⟩
  else if n = 0xED then .ok ⟨[b], 0xD, 1, 0x80, 0x9F⟩
  else if n < 0xF0 then .ok ⟨[b], n - 0xE0, 1, 0x80, 0xBF⟩
  else if n = 0xF0 then .ok ⟨[b], 0, 2, 0x90, 0xBF⟩
  else if n < 0xF4 then .ok ⟨[b], n - 0xF0, 2, 0x80, 0xBF⟩
  else if n = 0xF4 then .ok ⟨[b], 4, 2, 0x80, 0x8F⟩
  else .error (.stray [b])

/-- The next byte of a character, if it is one: the finished character or the longer start. -/
def Partial.push? (p : Partial) (b : UInt8) : Option (Except Piece Partial) :=
  if p.low ≤ b && b ≤ p.high then
    let value := p.value * 64 + (b.toNat - 0x80)
    match p.left with
    | 0 => some (.error (.char (Char.ofNat value)))
    | left + 1 => some (.ok ⟨p.seen ++ [b], value, left, 0x80, 0xBF⟩)
  else none

/-- The pieces of a byte string that follows a started character, if any. -/
def piecesFrom : Option Partial → Bytes → List Piece
  | none, [] => []
  | some p, [] => [.stray p.seen]
  | none, b :: rest =>
    match begin b with
    | .error piece => piece :: piecesFrom none rest
    | .ok p => piecesFrom (some p) rest
  | some p, b :: rest =>
    match p.push? b with
    | some (.error piece) => piece :: piecesFrom none rest
    | some (.ok q) => piecesFrom (some q) rest
    | none =>
      match begin b with
      | .error piece => .stray p.seen :: piece :: piecesFrom none rest
      | .ok q => .stray p.seen :: piecesFrom (some q) rest

/-- The characters and stray bytes of a byte string, in order. -/
def pieces (bytes : Bytes) : List Piece := piecesFrom none bytes

/-- The character shown for stray bytes. -/
def replacement : Char := Char.ofNat 0xFFFD

/-- The character of a piece, `replacement` for stray bytes. -/
def Piece.shown : Piece → Char
  | .char c => c
  | .stray _ => replacement

/-- The character of a piece, if it is one. -/
def Piece.char? : Piece → Option Char
  | .char c => some c
  | .stray _ => none

/-- The text of a byte string with each stray stretch replaced. -/
def lossy (bytes : Bytes) : String := String.ofList ((pieces bytes).map Piece.shown)

/-- The text of a byte string without stray bytes. -/
def decode? (bytes : Bytes) : Option String :=
  ((pieces bytes).mapM Piece.char?).map String.ofList

/-- The bytes of a text. -/
def encode (text : String) : Bytes := text.toList.flatMap String.utf8EncodeChar

end Utf8

end ClangLens
