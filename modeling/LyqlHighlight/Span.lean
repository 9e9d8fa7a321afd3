import LyqlHighlight.Text.Offset

namespace LyqlHighlight

/-!
# Spans

* `Span` — a half-open range of characters;
* `Span.size` — its length, which has to be a natural number that fits a word.
-/

/-- The characters from `start` on and before `stop`.  Neither bound is restricted: a span may
    come from a parser that reports any two integers. -/
structure Span where
  /-- The first position inside. -/
  start : Int
  /-- The first position after. -/
  stop : Int
deriving DecidableEq, Repr

/-- Why a span has no size. -/
inductive SizeError where
  /-- The span stops before it starts. -/
  | negative
  /-- The size exceeds every word. -/
  | tooLarge
deriving DecidableEq, Repr

/-- The wording of the error. -/
def SizeError.message : SizeError → String
  | negative => "__len__() should return >= 0"
  | tooLarge => Text.OffsetError.tooLarge.message

namespace Span

/-- The distance between the bounds. -/
def length (s : Span) : Int :=
  s.stop - s.start

/-- The number of characters in a span. -/
def size (s : Span) : Except SizeError Nat :=
  if s.length < 0 then .error .negative
  else if Text.wordBound ≤ s.length then .error .tooLarge
  else .ok s.length.toNat

/-- The text that shows a span in a message. -/
def text (s : Span) : String :=
  "Span(start=" ++ toString s.start ++ ", end=" ++ toString s.stop ++ ")"

end Span

end LyqlHighlight
