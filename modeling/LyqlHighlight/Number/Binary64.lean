namespace LyqlHighlight

/-!
# Binary floating point numbers

The values of the 64-bit binary format, as exact data: a finite number is a sign and
`significand * 2 ^ exponent`.  Nothing is computed with them; they are read, shown, and cut down
to integers.

* `Binary64` — the values, and `Binary64.ofBits` their encoding;
* `Binary64.magnitude` — the exact size of a finite number;
* `Binary64.truncate?` — the integer part.
-/

/-- A 64-bit binary floating point number. -/
inductive Binary64 where
  /-- Not a number. -/
  | nan
  /-- An infinity. -/
  | infinite (negative : Bool)
  /-- The number `± significand * 2 ^ exponent`. -/
  | finite (negative : Bool) (significand : Nat) (exponent : Int)
deriving DecidableEq, Repr

namespace Binary64

/-- The leading bit of a significand that is not written in the encoding: two to the 52nd. -/
def leadingBit : Nat := 4503599627370496

/-- The number that 64 bits encode. -/
def ofBits (bits : UInt64) : Binary64 :=
  let negative := bits >>> 63 == 1
  let exponent := ((bits >>> 52) &&& 0x7FF).toNat
  let fraction := (bits &&& 0xFFFFFFFFFFFFF).toNat
  if exponent = 0x7FF then if fraction = 0 then infinite negative else nan
  else if exponent = 0 then finite negative fraction (-1074)
  else finite negative (leadingBit + fraction) (exponent - 1075)

/-- The exact size of `significand * 2 ^ exponent`. -/
def magnitude (significand : Nat) (exponent : Int) : Rat :=
  significand * 2 ^ exponent

/-- Whether the number is one of the two zeros. -/
def isZero : Binary64 → Bool
  | finite _ significand _ => significand == 0
  | _ => false

/-- The number without its fractional part, which moves a finite number toward zero. -/
def truncate? : Binary64 → Option Int
  | finite negative significand exponent =>
    let whole := (magnitude significand exponent).floor
    some (if negative then -whole else whole)
  | _ => none

example : (finite true 5 (-1)).truncate? = some (-2) := by decide +kernel

end Binary64

end LyqlHighlight
