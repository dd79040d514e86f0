import ClangLens.Text.Utf8

/-!
# Numbers as JSON spells them

A numeral keeps its digits, so what a reader makes of it is decided where it is used: a whole number
in a range, or a fraction, which is only asked whether it is within the range of a 64-bit float.
-/

namespace ClangLens.Json

/-- The parts of a spelled number. -/
structure Numeral where
  negative : Bool
  whole : List Nat
  fraction : Option (List Nat)
  /-- Whether the exponent is negative, and its digits. -/
  exponent : Option (Bool × List Nat)
deriving DecidableEq

namespace Numeral

/-- The number that digits spell. -/
def value (digits : List Nat) : Nat := digits.foldl (fun acc d => acc * 10 + d) 0

/-- The whole number a numeral spells, if it has no sign, fraction or exponent. -/
def natural? (n : Numeral) : Option Nat :=
  match n with
  | ⟨false, whole, none, none⟩ => some (value whole)
  | _ => none

/-- A number to 53 binary digits, a half to the even neighbour. -/
def round (n : Nat) : Nat :=
  let shift := n.log2 - 52
  let unit := Nat.pow 2 shift
  let kept := n / unit
  let rest := n % unit
  if rest * 2 > unit || (rest * 2 = unit && kept % 2 = 1) then (kept + 1) * unit else kept * unit

/-- The digits of the significand that fit in 64 bits, and the power of ten left over: digits of
the whole part that do not fit raise the power, digits of the fraction that do lower it. -/
def significand (whole fraction : List Nat) : Nat × Int :=
  let push (acc : Nat × Int × Bool) (d : Nat) (fits overflow : Int) : Nat × Int × Bool :=
    let (s, e, full) := acc
    if full || UInt64.size ≤ s * 10 + d then (s, e + overflow, true)
    else (s * 10 + d, e + fits, false)
  let (s, e, _) := whole.foldl (fun acc d => push acc d 0 1) (0, 0, false)
  let (s, e, _) := fraction.foldl (fun acc d => push acc d (-1) 0) (s, e, false)
  (s, e)

/-- The power of ten that the exponent adds. -/
def power (n : Numeral) : Int :=
  match n.exponent with
  | none => 0
  | some (true, digits) => -(value digits : Int)
  | some (false, digits) => value digits

/-- Whether a numeral is no whole number that is kept exactly: it has a fraction or an exponent, or
does not fit in 64 bits. -/
def isFloat (n : Numeral) : Bool :=
  n.fraction.isSome || n.exponent.isSome || UInt64.size ≤ value n.whole

/-- Whether a numeral is too large for a 64-bit float. -/
def tooLarge (n : Numeral) : Bool :=
  let (s, e) := significand n.whole (n.fraction.getD [])
  let e := e + n.power
  n.isFloat && s ≠ 0 &&
    (309 ≤ e || (0 ≤ e && Nat.pow 2 1024 ≤ round (round s * round (Nat.pow 10 e.toNat))))

end Numeral

end ClangLens.Json
