import LyqlHighlight.Text.Printable

namespace LyqlHighlight.Text

/-!
# Quoted text

Messages show a text or a string of bytes between quotes.  The quote is single, except around a
text that holds single quotes and no double ones.  A backslash and the quote in use stand behind
a backslash, line feed, carriage return and tab are written by a letter, and every other
character that is not printable by its code in lower-case hexadecimal digits.

* `quoteFor` — the quote in use;
* `hexDigits` — a number in a fixed count of hexadecimal digits;
* `quoted`, `quotedBytes` — the written forms.
-/

/-- The single quote. -/
def singleQuote : Char := '\x27'

/-- The double quote. -/
def doubleQuote : Char := '\x22'

/-- The quote around a text. -/
def quoteFor (text : List Char) : Char :=
  if singleQuote ∈ text ∧ doubleQuote ∉ text then doubleQuote else singleQuote

/-- The last `count` hexadecimal digits of `n`. -/
def hexDigits : Nat → Nat → List Char
  | 0, _ => []
  | count + 1, n => hexDigits count (n / 16) ++ [Nat.digitChar (n % 16)]

/-- A character by its code: two digits behind `x`, four behind `u` or eight behind `U`. -/
def escapeCode (n : Nat) : List Char :=
  if n < 0x100 then '\\' :: 'x' :: hexDigits 2 n
  else if n < 0x10000 then '\\' :: 'u' :: hexDigits 4 n
  else '\\' :: 'U' :: hexDigits 8 n

/-- The written form of one character between quotes `q`; `shown` says which characters may
    stand for themselves. -/
def escape (shown : Char → Bool) (q c : Char) : List Char :=
  if c = q ∨ c = '\\' then ['\\', c]
  else if c = '\n' then ['\\', 'n']
  else if c = '\r' then ['\\', 'r']
  else if c = '\t' then ['\\', 't']
  else if shown c then [c]
  else escapeCode c.toNat

/-- A text between quotes. -/
def quoted (text : String) : String :=
  let q := quoteFor text.toList
  String.ofList (q :: text.toList.flatMap (escape isPrintable q) ++ [q])

/-- Bytes between quotes, behind the letter `b`; the bytes of printable ASCII characters stand
    for themselves. -/
def quotedBytes (bytes : List UInt8) : String :=
  let text := bytes.map fun b => Char.ofNat b.toNat
  let q := quoteFor text
  String.ofList
    ('b' :: q :: text.flatMap (escape (fun c => 0x20 ≤ c.toNat && c.toNat < 0x7F) q) ++ [q])

example : quoted "it's" = "\"it's\"" := by decide
example : quotedBytes [0x61, 0xFF] = "b'a\\xff'" := by decide

end LyqlHighlight.Text
