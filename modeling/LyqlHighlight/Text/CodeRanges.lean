namespace LyqlHighlight.Text

/-!
# Code ranges

A property of characters is carried as a list of closed ranges of code points, ascending and
apart.  The property tables of this folder hold the values of Unicode 14.

* `CodeRanges` — the table;
* `CodeRanges.has` — whether a code point lies in one of the ranges.
-/

/-- Closed ranges of code points, each given by its first and its last member. -/
abbrev CodeRanges := List (Nat × Nat)

/-- Whether some range of the table covers the code point `n`. -/
def CodeRanges.has (ranges : CodeRanges) (n : Nat) : Bool :=
  ranges.any fun r => r.1 ≤ n && n ≤ r.2

end LyqlHighlight.Text
