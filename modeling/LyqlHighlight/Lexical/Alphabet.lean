import LyqlHighlight.Text.Letter

namespace LyqlHighlight.Lexical

/-!
# The alphabet of LyQL

The classes of characters that decide where a piece of LyQL text starts and ends.

* `isSpace`, `isQuote`, `isWordStart`, `isWordChar` — spaces, strings and words;
* `partner?`, `standsAlone`, `isPunctuation` — symbols of two characters and of one.
-/

/-- The white space between the pieces of a text. -/
def isSpace (c : Char) : Bool :=
  c = ' ' || c = '\r' || c = '\t' || c = '\n'

/-- The quotes around a string: double, single and slanted. -/
def isQuote (c : Char) : Bool :=
  c = '\x22' || c = '\x27' || c = '\x60'

/-- The characters of words that are neither letters nor digits. -/
def isWordMark (c : Char) : Bool :=
  c = '_' || c = '$' || c = '\\'

/-- The characters that a word may start with. -/
def isWordStart (c : Char) : Bool :=
  c.isAlpha || isWordMark c

/-- The characters that a word may go on with: letters of any script and ASCII digits. -/
def isWordChar (c : Char) : Bool :=
  Text.isLetter c || c.isDigit || isWordMark c

/-- The second character of a symbol of two characters, by its first one. -/
def partner? : Char → Option Char
  | '!' | '=' | '<' | '>' => some '='
  | ':' => some ':'
  | '&' => some '&'
  | '|' => some '|'
  | _ => none

/-- The first characters of such symbols that are symbols by themselves, too. -/
def standsAlone (c : Char) : Bool :=
  c = '!' || c = '=' || c = '<' || c = '>' || c = ':'

/-- The symbols of one character that start no other piece of text. -/
def isPunctuation (c : Char) : Bool :=
  ['(', ')', '\x7b', '\x7d', ',', '.', '-', '+', ';', '*', '[', ']'].contains c

/-- A letter in the sense of `Char.isAlpha` is an ASCII character. -/
theorem toNat_lt_of_isAlpha {c : Char} (h : c.isAlpha = true) : c.toNat < 0x80 := by
  have upper : c.isUpper = decide (65 ≤ c.val ∧ c.val ≤ 90) := rfl
  have lower : c.isLower = (decide (97 ≤ c.val) && decide (c.val ≤ 122)) := rfl
  have bounded : c.val ≤ 122 := by
    rcases Bool.or_eq_true_iff.mp h with h | h
    · rw [upper, decide_eq_true_eq] at h
      exact UInt32.le_trans h.2 (by decide)
    · rw [lower, Bool.and_eq_true, decide_eq_true_eq, decide_eq_true_eq] at h
      exact h.2
  exact Nat.lt_of_le_of_lt (UInt32.le_iff_toNat_le.mp bounded) (by decide)

end LyqlHighlight.Lexical
