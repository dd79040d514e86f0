import ClangLens.Json.Numeral

/-!
# Reading JSON

A text is read as far as it is JSON, and the place where it stops being JSON is part of what is
read. So what a reader asks of the value is settled in the order of the text: a value of the wrong
shape in front of a broken one is the wrong shape, behind it the break.
-/

namespace ClangLens.Json

/-- Why reading could not go on: the text ended, or what follows is not JSON. -/
inductive Stop where
  | ended
  | malformed
deriving DecidableEq

/-- Why a text is not what was asked for. -/
inductive Fault where
  | stopped (stop : Stop)
  /-- The value has another shape. -/
  | mismatched
deriving DecidableEq

/-- A piece of a text between quotes. -/
inductive Part where
  | byte (b : UInt8)
  /-- A numbered escape. -/
  | unit (n : Nat)
deriving DecidableEq

/-- A text between quotes, up to its closing quote or the place where reading stopped. -/
structure Literal where
  parts : List Part
  stop : Option Stop
deriving DecidableEq

/-- What was read of a value. -/
inductive Reading where
  | null
  | bool (b : Bool)
  | number (n : Numeral) (stop : Option Stop)
  | string (l : Literal)
  | array (items : List Reading) (stop : Option Stop)
  | object (members : List (Literal × Reading)) (stop : Option Stop)
  /-- No value: reading stopped in front of one, or in a word. -/
  | cut (stop : Stop)
deriving Inhabited

/-! ## Bytes -/

/-- The byte of an ASCII character. -/
def byte (c : Char) : UInt8 := c.toNat.toUInt8

def isBlank (b : UInt8) : Bool :=
  b = byte ' ' || b = byte '\n' || b = byte '\t' || b = byte '\r'

def skipBlank (text : Bytes) : Bytes := text.dropWhile isBlank

def isDigit (b : UInt8) : Bool := byte '0' ≤ b && b ≤ byte '9'

def digit (b : UInt8) : Nat := b.toNat - (byte '0').toNat

/-- The value of a hexadecimal digit. -/
def hexDigit? (b : UInt8) : Option Nat :=
  if isDigit b then some (digit b)
  else if byte 'a' ≤ b && b ≤ byte 'f' then some (b.toNat - (byte 'a').toNat + 10)
  else if byte 'A' ≤ b && b ≤ byte 'F' then some (b.toNat - (byte 'A').toNat + 10)
  else none

/-- The value of four hexadecimal digits. -/
def hex4? (a b c d : UInt8) : Option Nat := do
  return (((← hexDigit? a) * 16 + (← hexDigit? b)) * 16 + (← hexDigit? c)) * 16 + (← hexDigit? d)

/-- The byte that a short escape stands for. -/
def shortEscape? (b : UInt8) : Option UInt8 :=
  if b = byte '"' || b = byte '\\' || b = byte '/' then some b
  else if b = byte 'b' then some 8
  else if b = byte 'f' then some 12
  else if b = byte 'n' then some 10
  else if b = byte 'r' then some 13
  else if b = byte 't' then some 9
  else none

/-! ## Texts between quotes -/

/-- A literal with one more part in front. -/
def Literal.cons (part : Part) (l : Literal × Bytes) : Literal × Bytes :=
  (⟨part :: l.1.parts, l.1.stop⟩, l.2)

/-- What is read behind an opening quote, and what follows it. -/
def literal : Bytes → Literal × Bytes
  | [] => (⟨[], some .ended⟩, [])
  | b :: rest =>
    if b = byte '"' then (⟨[], none⟩, rest)
    else if b = byte '\\' then
      match rest with
      | [] => (⟨[], some .ended⟩, [])
      | e :: rest =>
        if e = byte 'u' then
          match rest with
          | a :: b :: c :: d :: rest =>
            match hex4? a b c d with
            | some n => Literal.cons (.unit n) (literal rest)
            | none => (⟨[], some .malformed⟩, [])
          | _ => (⟨[], some .ended⟩, [])
        else
          match shortEscape? e with
          | some b => Literal.cons (.byte b) (literal rest)
          | none => (⟨[], some .malformed⟩, [])
    else if b < byte ' ' then (⟨[], some .malformed⟩, [])
    else Literal.cons (.byte b) (literal rest)

/-- Whether a numbered escape is the first half of a pair. -/
def isHigh (n : Nat) : Bool := 0xD800 ≤ n && n < 0xDC00

/-- Whether a numbered escape is the second half of a pair. -/
def isLow (n : Nat) : Bool := 0xDC00 ≤ n && n < 0xE000

/-- The character of a pair. -/
def paired (high low : Nat) : Char :=
  Char.ofNat (0x10000 + (high - 0xD800) * 0x400 + (low - 0xDC00))

/-- The bytes of a literal; halves of a pair have to stand side by side. -/
def Literal.bytes (stop : Option Stop) : List Part → Except Stop Bytes
  | [] =>
    match stop with
    | some s => .error s
    | none => .ok []
  | .byte b :: rest => do return b :: (← bytes stop rest)
  | .unit n :: rest =>
    if isLow n then .error .malformed
    else if isHigh n then
      match rest with
      | [] => .error (stop.getD .malformed)
      | .byte _ :: _ => .error .malformed
      | .unit m :: rest =>
        if isLow m then do
          return String.utf8EncodeChar (paired n m) ++ (← bytes stop rest)
        else .error .malformed
    else do return String.utf8EncodeChar (Char.ofNat n) ++ (← bytes stop rest)

/-- The text of a literal. -/
def Literal.text (l : Literal) : Except Stop String := do
  match Utf8.decode? (← Literal.bytes l.stop l.parts) with
  | some s => return s
  | none => throw .malformed

/-! ## Numbers -/

/-- The digits in front, and what follows them. -/
def digits (text : Bytes) : List Nat × Bytes :=
  ((text.takeWhile isDigit).map digit, text.dropWhile isDigit)

/-- Why there are no digits where some are needed. -/
def noDigits (text : Bytes) : Stop := if text = [] then .ended else .malformed

/-- The exponent of a numeral whose other parts are read. -/
def exponentOf (n : Numeral) (text : Bytes) : Reading × Bytes :=
  match text with
  | [] => (.number n none, [])
  | b :: rest =>
    if b = byte 'e' || b = byte 'E' then
      let (negative, rest) :=
        match rest with
        | s :: more =>
          if s = byte '+' then (false, more)
          else if s = byte '-' then (true, more)
          else (false, rest)
        | [] => (false, [])
      let (ds, rest) := digits rest
      if ds = [] then (.number n (some (noDigits rest)), [])
      else (.number { n with exponent := some (negative, ds) } none, rest)
    else (.number n none, text)

/-- The fraction and exponent of a numeral whose whole part is read. -/
def fractionOf (n : Numeral) (text : Bytes) : Reading × Bytes :=
  match text with
  | [] => (.number n none, [])
  | b :: rest =>
    if b = byte '.' then
      let (ds, rest) := digits rest
      if ds = [] then (.number n (some (noDigits rest)), [])
      else exponentOf { n with fraction := some ds } rest
    else exponentOf n text

/-- A number whose sign is read. -/
def numberOf (negative : Bool) (text : Bytes) : Reading × Bytes :=
  let (ds, rest) := digits text
  let n : Numeral := ⟨negative, ds, none, none⟩
  match ds with
  | [] => (.number n (some (noDigits rest)), [])
  | [0] => fractionOf n rest
  | 0 :: _ => (.number n (some .malformed), [])
  | _ => fractionOf n rest

/-! ## Values -/

/-- A word with a meaning, of which the first letter is read. -/
def wordOf (meaning : Reading) : List Char → Bytes → Reading × Bytes
  | [], text => (meaning, text)
  | _ :: _, [] => (.cut .ended, [])
  | c :: word, b :: rest => if b = byte c then wordOf meaning word rest else (.cut .malformed, [])

mutual

/-- What is read of a value, and what follows it. -/
def valueOf : Nat → Bytes → Reading × Bytes
  | 0, _ => (.cut .malformed, [])
  | fuel + 1, text =>
    match skipBlank text with
    | [] => (.cut .ended, [])
    | b :: rest =>
      if b = byte '[' then
        match skipBlank rest with
        | [] => (.array [] (some .ended), [])
        | c :: more =>
          if c = byte ']' then (.array [] none, more)
          else
            let (items, stop, rest) := itemsOf fuel rest
            (.array items stop, rest)
      else if b = byte '\x7b' then
        match skipBlank rest with
        | [] => (.object [] (some .ended), [])
        | c :: more =>
          if c = byte '\x7d' then (.object [] none, more)
          else
            let (members, stop, rest) := membersOf fuel rest
            (.object members stop, rest)
      else if b = byte '"' then
        let (l, rest) := literal rest
        (.string l, rest)
      else if b = byte '-' then numberOf true rest
      else if isDigit b then numberOf false (b :: rest)
      else if b = byte 'n' then wordOf .null ['u', 'l', 'l'] rest
      else if b = byte 't' then wordOf (.bool true) ['r', 'u', 'e'] rest
      else if b = byte 'f' then wordOf (.bool false) ['a', 'l', 's', 'e'] rest
      else (.cut .malformed, [])

/-- The items of an array that has at least one more. -/
def itemsOf : Nat → Bytes → List Reading × Option Stop × Bytes
  | 0, _ => ([], some .malformed, [])
  | fuel + 1, text =>
    let (item, rest) := valueOf fuel text
    match skipBlank rest with
    | [] => ([item], some .ended, [])
    | b :: rest =>
      if b = byte ']' then ([item], none, rest)
      else if b = byte ',' then
        if (skipBlank rest).head? = some (byte ']') then ([item, .cut .malformed], none, [])
        else
          let (items, stop, rest) := itemsOf fuel rest
          (item :: items, stop, rest)
      else ([item], some .malformed, [])

/-- The members of an object that has at least one more. -/
def membersOf : Nat → Bytes → List (Literal × Reading) × Option Stop × Bytes
  | 0, _ => ([], some .malformed, [])
  | fuel + 1, text =>
    match skipBlank text with
    | [] => ([], some .ended, [])
    | b :: rest =>
      if b = byte '"' then
        let (key, rest) := literal rest
        match key.stop with
        | some s => ([(key, .cut s)], none, [])
        | none =>
          match skipBlank rest with
          | [] => ([(key, .cut .ended)], none, [])
          | b :: rest =>
            if b = byte ':' then
              let (value, rest) := valueOf fuel rest
              match skipBlank rest with
              | [] => ([(key, value)], some .ended, [])
              | b :: rest =>
                if b = byte '\x7d' then ([(key, value)], none, rest)
                else if b = byte ',' then
                  let (members, stop, rest) := membersOf fuel rest
                  ((key, value) :: members, stop, rest)
                else ([(key, value)], some .malformed, [])
            else ([(key, .cut .malformed)], none, [])
      else ([], some .malformed, [])

end

/-- What is read of a whole text, and what follows the value. -/
def read (text : Bytes) : Reading × Bytes := valueOf (2 * text.length + 2) text

/-! ## What a reading holds -/

/-- A stop as a fault. -/
def stopped {α : Type} : Option Stop → Except Fault α → Except Fault α
  | some s, _ => .error (.stopped s)
  | none, next => next

namespace Reading

mutual

/-- Reads past a value, whatever it is. -/
def skip : Reading → Except Fault Unit
  | .null | .bool _ => .ok ()
  | .number _ stop => stopped (stop.map fun _ => .malformed) (.ok ())
  | .string l => stopped l.stop (.ok ())
  | .array items stop => do
    skipItems items
    stopped stop (.ok ())
  | .object members stop => do
    skipMembers members
    stopped stop (.ok ())
  | .cut s => .error (.stopped s)

/-- Reads past the items of an array. -/
def skipItems : List Reading → Except Fault Unit
  | [] => .ok ()
  | r :: rest => do
    r.skip
    skipItems rest

/-- Reads past the members of an object. -/
def skipMembers : List (Literal × Reading) → Except Fault Unit
  | [] => .ok ()
  | (key, r) :: rest => do
    stopped key.stop (.ok ())
    r.skip
    skipMembers rest

end

/-- The text of a literal, as a reading. -/
def ofLiteral (l : Literal) : Except Fault String :=
  match l.text with
  | .ok s => .ok s
  | .error s => .error (.stopped s)

/-- A number that is finite as a float. -/
def ofNumber (n : Numeral) (stop : Option Stop) : Except Fault Numeral :=
  stopped stop (if n.tooLarge then .error (.stopped .malformed) else .ok n)

/-- The fault of a value that is none of the shapes asked for. -/
def wrongShape {α : Type} : Reading → Except Fault α
  | .cut s => .error (.stopped s)
  | .number n stop => do
    let _ ← ofNumber n stop
    throw .mismatched
  | .string l => do
    let _ ← ofLiteral l
    throw .mismatched
  | _ => .error .mismatched

/-- A text. -/
def asText : Reading → Except Fault String
  | .string l => ofLiteral l
  | r => r.wrongShape

/-- A whole number of 32 bits. -/
def asWord : Reading → Except Fault UInt32
  | .number n stop => do
    match (← ofNumber n stop).natural? with
    | some v => if v < UInt32.size then .ok v.toUInt32 else .error .mismatched
    | none => .error .mismatched
  | r => r.wrongShape

/-- What is known of two named fields after reading members; each may be given once, others are
read past. -/
def fields {α β : Type} (first : String) (readFirst : Reading → Except Fault α)
    (second : String) (readSecond : Reading → Except Fault β) :
    List (Literal × Reading) → Option α → Option β → Except Fault (Option α × Option β)
  | [], a, b => .ok (a, b)
  | (key, r) :: rest, a, b => do
    let name ← ofLiteral key
    if name = first then
      if a.isSome then throw .mismatched
      let x ← readFirst r
      fields first readFirst second readSecond rest (some x) b
    else if name = second then
      if b.isSome then throw .mismatched
      let y ← readSecond r
      fields first readFirst second readSecond rest a (some y)
    else
      r.skip
      fields first readFirst second readSecond rest a b

/-- A record of two fields: an object with both names, or an array of exactly both values. -/
def asPair {α β : Type} (first : String) (readFirst : Reading → Except Fault α)
    (second : String) (readSecond : Reading → Except Fault β) :
    Reading → Except Fault (α × β)
  | .object members stop => do
    let found ← fields first readFirst second readSecond members none none
    stopped stop <|
      match found with
      | (some a, some b) => .ok (a, b)
      | _ => .error .mismatched
  | .array items stop =>
    match items with
    | [] => stopped stop (.error .mismatched)
    | [x] => do
      let _ ← readFirst x
      stopped stop (.error .mismatched)
    | [x, y] => do
      let a ← readFirst x
      let b ← readSecond y
      stopped stop (.ok (a, b))
    | x :: y :: _ => do
      let _ ← readFirst x
      let _ ← readSecond y
      throw (.stopped .malformed)
  | r => r.wrongShape

end Reading

/-- A whole text read as one value, with nothing but blanks behind it. -/
def readAs {α : Type} (ask : Reading → Except Fault α) (text : Bytes) : Except Fault α := do
  let (reading, rest) := read text
  let a ← ask reading
  if skipBlank rest = [] then return a else throw (.stopped .malformed)

end ClangLens.Json
