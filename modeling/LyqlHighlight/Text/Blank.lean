import LyqlHighlight.Text.CodeRanges

namespace LyqlHighlight.Text

/-!
# Blanks and words

A blank is a white space character, or one of the four information separators of ASCII.

* `isBlank` — the property;
* `words` — the maximal runs of other characters in a text, in their order.
-/

/-- The blank characters. -/
def blankRanges : CodeRanges :=
  [(0x9, 0xD), (0x1C, 0x20), (0x85, 0x85), (0xA0, 0xA0), (0x1680, 0x1680), (0x2000, 0x200A),
   (0x2028, 0x2029), (0x202F, 0x202F), (0x205F, 0x205F), (0x3000, 0x3000)]

/-- Whether a character separates words. -/
def isBlank (c : Char) : Bool :=
  blankRanges.has c.toNat

/-- Splits a text into the word that it starts with, empty if it starts with a blank, and the
    words after that. -/
def splitWords : List Char → List Char × List (List Char)
  | [] => ([], [])
  | c :: cs =>
    let (first, others) := splitWords cs
    if isBlank c then ([], if first.isEmpty then others else first :: others)
    else (c :: first, others)

/-- The words of a text, in their order. -/
def words (text : String) : List String :=
  let (first, others) := splitWords text.toList
  (if first.isEmpty then others else first :: others).map String.ofList

example : words " Null  Undefined" = ["Null", "Undefined"] := by decide

end LyqlHighlight.Text
