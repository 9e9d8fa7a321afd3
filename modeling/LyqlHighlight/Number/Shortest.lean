import LyqlHighlight.Number.Binary64

namespace LyqlHighlight

/-!
# Shortest decimals

The decimal text of a floating point number has the fewest digits that identify the number among
all numbers of the format.

* `Binary64.lowerGap`, `Binary64.readsBack` — the decimals that are nearest to a number, ties
  going to the even significand;
* `leadingPlace` — the place of the first digit of a number;
* `Binary64.shortest` — the digits;
* `Binary64.text` — their layout.
-/

/-- The decimal `digits * 10 ^ place`. -/
structure Decimal where
  /-- The digits, read as one number. -/
  digits : Nat
  /-- The place of the last digit. -/
  place : Int
deriving DecidableEq, Repr

/-- The exact value of a decimal. -/
def Decimal.value (d : Decimal) : Rat :=
  d.digits * 10 ^ d.place

/-- The number of decimal digits of a positive number, and one for zero. -/
def digitCount (n : Nat) : Nat :=
  (Nat.toDigits 10 n).length

/-- The place of the first decimal digit of a positive number: `10 ^ p ≤ x < 10 ^ (p + 1)`. -/
def leadingPlace (x : Rat) : Int :=
  if 1 ≤ x then digitCount x.floor.toNat - 1
  else -(digitCount ((1 / x).ceil.toNat - 1))

namespace Binary64

/-- Half the distance to the number below, in units of `2 ^ (exponent - 2)`.  It is one unit at a
    power of two, where the numbers below lie closer together, and two units elsewhere. -/
def lowerGap (significand : Nat) (exponent : Int) : Nat :=
  if significand = leadingBit ∧ -1074 < exponent then 1 else 2

/-- Whether a decimal is read as `significand * 2 ^ exponent`: it lies between the points halfway
    to the neighbours, these included if the significand is even. -/
def readsBack (significand : Nat) (exponent : Int) (x : Rat) : Bool :=
  let low := magnitude (4 * significand - lowerGap significand exponent) (exponent - 2)
  let high := magnitude (4 * significand + 2) (exponent - 2)
  if significand % 2 = 0 then low ≤ x && x ≤ high else low < x && x < high

/-- The decimal with last digit at `place` that is nearest to the number, among the two around it
    that are read as the number; of two equally near ones the even one. -/
def nearestAt? (significand : Nat) (exponent : Int) (place : Int) : Option Decimal :=
  let x := magnitude significand exponent
  let below : Decimal := ⟨(x / 10 ^ place).floor.toNat, place⟩
  let above : Decimal := ⟨below.digits + 1, place⟩
  let fits (d : Decimal) : Bool := readsBack significand exponent d.value
  let middle := (below.value + above.value) / 2
  if fits below && (!fits above || x < middle || (x == middle && below.digits % 2 == 0)) then
    some below
  else if fits above then some above
  else none

/-- A decimal without the zeros at its end. -/
def dropZeros (d : Decimal) : Decimal :=
  if d.digits ≠ 0 ∧ d.digits % 10 = 0 then dropZeros ⟨d.digits / 10, d.place + 1⟩ else d
termination_by d.digits
decreasing_by exact Nat.div_lt_self (by omega) (by omega)

/-- The shortest decimal that is read as the positive number `significand * 2 ^ exponent`.
    Seventeen digits always suffice. -/
def shortest (significand : Nat) (exponent : Int) : Decimal :=
  let lead := leadingPlace (magnitude significand exponent)
  match (List.range 17).findSome? fun (n : Nat) => nearestAt? significand exponent (lead - n) with
  | some d => dropZeros d
  | none => ⟨(magnitude significand exponent).floor.toNat, 0⟩

/-- The number `n` with zeros in front of it up to the given width. -/
def padded (width n : Nat) : List Char :=
  let digits := Nat.toDigits 10 n
  List.replicate (width - digits.length) '0' ++ digits

/-- The layout of a decimal: positional with a point while its first digit stands between the
    fourth place behind the point and the sixteenth in front of it, and with a signed exponent of
    at least two digits otherwise. -/
def layout (d : Decimal) : List Char :=
  let digits := Nat.toDigits 10 d.digits
  let lead := d.place + digits.length - 1
  if -4 ≤ lead ∧ lead < 16 then
    if 0 ≤ d.place then digits ++ List.replicate d.place.toNat '0' ++ ['.', '0']
    else if 0 ≤ lead then
      digits.take (lead.toNat + 1) ++ '.' :: digits.drop (lead.toNat + 1)
    else '0' :: '.' :: List.replicate (-lead - 1).toNat '0' ++ digits
  else
    digits.take 1 ++ (if digits.length = 1 then [] else '.' :: digits.drop 1)
      ++ 'e' :: (if lead < 0 then '-' else '+') :: padded 2 lead.natAbs

/-- The text of a number. -/
def text : Binary64 → String
  | nan => "nan"
  | infinite negative => if negative then "-inf" else "inf"
  | finite negative significand exponent =>
    let size :=
      if significand = 0 then ['0', '.', '0'] else layout (shortest significand exponent)
    String.ofList (if negative then '-' :: size else size)

end Binary64

end LyqlHighlight
