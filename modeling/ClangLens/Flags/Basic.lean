import ClangLens.Text.Shown

/-!
# Bit sets with named bits

The option words of the library under inspection. A set keeps all bits of its word, named or not.
Three views of a set come from one table: its spelling, the names met on a walk through the table,
and the structure shown for a reader.
-/

namespace ClangLens

/-- One named value of a table of flags. -/
structure FlagEntry (w : Nat) where
  constant : String
  value : BitVec w
  spelling : String

/-- The named values of a word of `w` bits. -/
structure FlagTable (w : Nat) where
  /-- The name of the whole type, shown for sets with unnamed bits. -/
  typeName : String
  /-- What stands before the equals sign of a spelling. -/
  label : String
  entries : List (FlagEntry w)

/-- A set of bits, read by a table. -/
structure Flags {w : Nat} (table : FlagTable w) where
  bits : BitVec w
deriving DecidableEq

namespace Flags

variable {w : Nat} {table : FlagTable w}

/-- Every bit that some entry names. -/
def known (table : FlagTable w) : BitVec w :=
  table.entries.foldl (fun acc e => acc ||| e.value) 0

/-- The set without bits. -/
def empty : Flags table := ⟨0⟩

/-- The set of all named bits. -/
def all : Flags table := ⟨known table⟩

def union (a b : Flags table) : Flags table := ⟨a.bits ||| b.bits⟩

def inter (a b : Flags table) : Flags table := ⟨a.bits &&& b.bits⟩

/-- The first set without the bits of the second. -/
def diff (a b : Flags table) : Flags table := ⟨a.bits &&& ~~~b.bits⟩

def symmDiff (a b : Flags table) : Flags table := ⟨a.bits ^^^ b.bits⟩

/-- The named bits that are not in a set. -/
def complement (a : Flags table) : Flags table := ⟨~~~a.bits &&& known table⟩

/-- The named bits of a set. -/
def truncate (a : Flags table) : Flags table := ⟨a.bits &&& known table⟩

/-- A set with the bits of another put in or taken out. -/
def set (a b : Flags table) (on : Bool) : Flags table := if on then a.union b else a.diff b

/-- The union of several sets. -/
def unionAll (sets : List (Flags table)) : Flags table := sets.foldl union empty

/-- Whether all bits of the second set are in the first. -/
def contains (a b : Flags table) : Bool := a.bits &&& b.bits = b.bits

/-- Whether the sets share a bit. -/
def intersects (a b : Flags table) : Bool := a.bits &&& b.bits ≠ 0

def isEmpty (a : Flags table) : Bool := a.bits = 0

/-- Whether every named bit is set. -/
def isAll (a : Flags table) : Bool := a.contains all

/-- Whether some bit has no name. -/
def hasUnknown (a : Flags table) : Bool := a.bits &&& ~~~known table ≠ 0

/-- The set of a word, if every bit of it is named. -/
def ofBits? (bits : BitVec w) : Option (Flags table) :=
  let a : Flags table := ⟨bits⟩
  if a.hasUnknown then none else some a

/-- The constant of a name. -/
def ofName? (name : String) : Option (Flags table) :=
  if name = "" then none
  else (table.entries.find? fun e => e.constant = name).map fun e => ⟨e.value⟩

/-- Whether a word has exactly one bit. -/
def isSingle (v : BitVec w) : Bool := v ≠ 0 && v &&& (v - 1) = 0

/-- The single-bit entries contained in a word, in table order, and what they leave of it. -/
def singles : List (FlagEntry w) → BitVec w → List String × BitVec w
  | [], rest => ([], rest)
  | e :: more, rest =>
    if isSingle e.value && rest &&& e.value = e.value then
      let (names, left) := singles more (rest &&& ~~~e.value)
      (e.spelling :: names, left)
    else singles more rest

/-- The spelling of a word by a table: the name of the whole value, `None`, the names of its bits,
or the type and the number. -/
def spell (table : FlagTable w) (bits : BitVec w) : String :=
  match table.entries.find? fun e => e.value = bits with
  | some e => table.label ++ "=" ++ e.spelling
  | none =>
    if bits = 0 then table.label ++ "=None"
    else
      let (names, left) := singles table.entries bits
      if left ≠ 0 || names.isEmpty then table.typeName ++ " unknown " ++ toString bits.toNat
      else table.label ++ "=" ++ String.intercalate "|" names

/-- The spelling of a set. -/
def spelling (a : Flags table) : String := spell table a.bits

/-- The entries met on a walk through the table, each contained in the whole word and still
covering a bit, and the bits that none of them covers. -/
def walk (whole : BitVec w) : List (FlagEntry w) → BitVec w → List (FlagEntry w) × BitVec w
  | [], rest => ([], rest)
  | e :: more, rest =>
    if rest = 0 then ([], rest)
    else if whole &&& e.value = e.value && rest &&& e.value ≠ 0 then
      let (entries, left) := walk whole more (rest &&& ~~~e.value)
      (e :: entries, left)
    else walk whole more rest

/-- The constants that make up a set, as far as they do. -/
def names (a : Flags table) : List String :=
  (walk a.bits table.entries a.bits).1.map FlagEntry.constant

/-- The sets met on the walk, then the uncovered bits if there are any. -/
def parts (a : Flags table) : List (BitVec w) :=
  let (entries, left) := walk a.bits table.entries a.bits
  entries.map FlagEntry.value ++ if left = 0 then [] else [left]

/-- A word in hexadecimal digits. -/
def hex (v : BitVec w) : String := "0x" ++ String.ofList (Quoted.digits 16 v.toNat)

/-- The structure of a set. -/
def shown (a : Flags table) : Shown :=
  let (entries, left) := walk a.bits table.entries a.bits
  let parts := entries.map FlagEntry.constant ++ if left = 0 then [] else [hex left]
  .tuple table.typeName [.word (if a.bits = 0 then hex a.bits else String.intercalate " | " parts)]

end Flags

end ClangLens
