import LyqlHighlight.Text.Offset

namespace LyqlHighlight

/-!
# Blocks

A document shows its text line by line.  A block is a line as the document counts it: in 16-bit
units, and with a unit for its end.

* `lines` — the lines of a text;
* `Block`, `Block.ofText` — blocks, and the blocks of a text.
-/

/-- The lines of a text, without the newlines between them. -/
def lines : List Char → List (List Char)
  | [] => [[]]
  | c :: cs =>
    if c = '\n' then [] :: lines cs
    else
      match lines cs with
      | [] => [[c]]
      | line :: others => (c :: line) :: others

theorem lines_ne_nil (text : List Char) : lines text ≠ [] := by
  fun_cases lines text <;> simp

/-- A line of a document, in 16-bit units. -/
structure Block where
  /-- The unit at which the line starts. -/
  position : Int
  /-- The number of units of the line and its end. -/
  length : Int
deriving DecidableEq, Repr

namespace Block

/-- The unit after the block. -/
def stop (b : Block) : Int :=
  b.position + b.length

/-- The blocks of consecutive lines, the first of which starts at `position`. -/
def ofLines (position : Int) : List (List Char) → List Block
  | [] => []
  | line :: others =>
    let b : Block := ⟨position, Text.units line + 1⟩
    b :: ofLines b.stop others

/-- The blocks of a text. -/
def ofText (text : List Char) : List Block :=
  ofLines 0 (lines text)

end Block

end LyqlHighlight
