namespace LyqlHighlight.Text

/-!
# Capitals in ASCII

A word is compared with a table of ASCII words in capitals.  For that the upper-case form of a
character matters only where it is written in ASCII letters; every other letter may stand for
itself, since it makes the word differ from every entry of such a table either way.

* `capitalForms` — the letters beyond ASCII with capitals in ASCII;
* `capitals` — the capitals of a text.
-/

/-- The letters beyond ASCII whose upper-case form is written in ASCII letters. -/
def capitalForms : List (Nat × List Char) :=
  [(0xDF, ['S', 'S']), (0x131, ['I']), (0x17F, ['S']), (0xFB00, ['F', 'F']),
   (0xFB01, ['F', 'I']), (0xFB02, ['F', 'L']), (0xFB03, ['F', 'F', 'I']),
   (0xFB04, ['F', 'F', 'L']), (0xFB05, ['S', 'T']), (0xFB06, ['S', 'T'])]

/-- The upper-case form of a character, as far as it is written in ASCII letters. -/
def capitalsOf (c : Char) : List Char :=
  if c.toNat < 0x80 then [c.toUpper] else (capitalForms.lookup c.toNat).getD [c]

theorem capitalsOf_of_ascii {c : Char} (h : c.toNat < 0x80) : capitalsOf c = [c.toUpper] := by
  simp [capitalsOf, h]

/-- The capitals of a text. -/
def capitals (text : List Char) : List Char :=
  text.flatMap capitalsOf

@[simp] theorem capitals_append (s t : List Char) :
    capitals (s ++ t) = capitals s ++ capitals t := by
  simp [capitals]

end LyqlHighlight.Text
