import LyqlHighlight.Text.Blank
import LyqlHighlight.Text.DecimalDigit

namespace LyqlHighlight.Text

/-!
# Numerals

The integers that may be written in a text: blanks around an optional sign and decimal digits of
any script, with single underscores between digits, and not more than `maxDigits` digits.

* `isPadding` — the blanks allowed around a numeral, which are not all blanks;
* `digits?` — the values of a run of digits;
* `integer?`, `integerOfBytes?` — the integer.
-/

/-- The greatest number of digits of a numeral. -/
def maxDigits : Nat := 4300

/-- Whether a character may stand around a numeral.  Among the ASCII characters these are the
    space and the five characters from tab to carriage return. -/
def isPadding (c : Char) : Bool :=
  if c.toNat < 0x80 then c = ' ' || (0x9 ≤ c.toNat && c.toNat ≤ 0xD) else isBlank c

/-- A text without the padding on both sides. -/
def trim (text : List Char) : List Char :=
  ((text.dropWhile isPadding).reverse.dropWhile isPadding).reverse

/-- The values of a nonempty run of digits, single underscores between digits passed over. -/
def digits? : List Char → Option (List Nat)
  | [] => none
  | [c] => (digitValue? c).map ([·])
  | c :: '_' :: cs => do
    let d ← digitValue? c
    let ds ← digits? cs
    return d :: ds
  | c :: cs => do
    let d ← digitValue? c
    let ds ← digits? cs
    return d :: ds

/-- The number with the given decimal digits, the first one the most significant. -/
def ofDigits (digits : List Nat) : Nat :=
  digits.foldl (fun n d => 10 * n + d) 0

/-- The natural number that a text of digits is a numeral of. -/
def natural? (text : List Char) : Option Nat := do
  let digits ← digits? text
  if digits.length ≤ maxDigits then some (ofDigits digits) else none

/-- The integer that a text is a numeral of. -/
def integer? (text : List Char) : Option Int :=
  match trim text with
  | '-' :: cs => (natural? cs).map fun n => -(n : Int)
  | '+' :: cs => (natural? cs).map Int.ofNat
  | cs => (natural? cs).map Int.ofNat

/-- The integer that a string of ASCII bytes is a numeral of. -/
def integerOfBytes? (bytes : List UInt8) : Option Int :=
  if bytes.all (·.toNat < 0x80) then integer? (bytes.map fun b => Char.ofNat b.toNat) else none

example : integer? [' ', '-', '1', '_', '2'] = some (-12) := by decide
example : integer? ['1', '_', '_', '2'] = none := by decide

end LyqlHighlight.Text
