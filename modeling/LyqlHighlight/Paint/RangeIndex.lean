import LyqlHighlight.Paint.Block
import LyqlHighlight.Tree

namespace LyqlHighlight

/-!
# An index of ranges

The ranges to paint are kept in the order of their starts, along with how far the ranges up to each
of them reach.  The ranges that may touch a block then lie between two places, and each place is
found by bisection.

* `PaintRange` — a range of a document with its style class;
* `boundary` — the place up to which a condition holds;
* `RangeIndex`, `RangeIndex.near` — the index, and the ranges near a block.
-/

/-- A range of a document, in 16-bit units, with its style class. -/
structure PaintRange where
  /-- The first unit inside. -/
  start : Int
  /-- The first unit after. -/
  stop : Int
  /-- The style class. -/
  className : String
deriving DecidableEq, Repr

namespace PaintRange

/-- A range of characters of a text as a range of the document that shows the text. -/
def ofStyled (text : List Char) (r : StyledRange) : Except Text.OffsetError PaintRange := do
  return ⟨← Text.unitOffset text r.start, ← Text.unitOffset text r.stop, r.rule.className⟩

/-- The ranges of a tree that end within a text, in the order of the tree. -/
def ofTree (tree : Tree) (text : List Char) : Except Text.OffsetError (List PaintRange) :=
  let inside := (tree.styledRanges 0).filter fun r => r.stop ≤ (text.length : Int)
  inside.mapM (ofStyled text)

end PaintRange

/-! ### Bisection -/

/-- The place between `low` and `high` up to which a condition holds, for a condition that holds
    up to some place and not from there on. -/
def boundaryWithin (holds : Nat → Bool) (low high : Nat) : Nat :=
  if low < high then
    let middle := (low + high) / 2
    if holds middle then boundaryWithin holds (middle + 1) high
    else boundaryWithin holds low middle
  else low
termination_by high - low

theorem boundaryWithin_mem (holds : Nat → Bool) {low high : Nat} (h : low ≤ high) :
    low ≤ boundaryWithin holds low high ∧ boundaryWithin holds low high ≤ high := by
  fun_induction boundaryWithin holds low high <;> grind

/-- The places before the boundary are those where the condition holds. -/
theorem lt_boundaryWithin_iff {holds : Nat → Bool} (mono : ∀ i j, i ≤ j → holds j → holds i)
    {low high i : Nat} (hlow : low ≤ i) (hhigh : i < high) :
    i < boundaryWithin holds low high ↔ holds i := by
  fun_induction boundaryWithin holds low high with
  | case1 low high h middle hm ih =>
    by_cases hi : middle + 1 ≤ i
    · exact ih hi hhigh
    · have := mono i middle (by omega) hm
      have := boundaryWithin_mem holds (show middle + 1 ≤ high by omega)
      grind
  | case2 low high h middle hm ih =>
    by_cases hi : i < middle
    · exact ih hlow hi
    · have : ¬holds i := fun hc => hm (mono middle i (by omega) hc)
      have := boundaryWithin_mem holds (show low ≤ middle by omega)
      grind
  | case3 low high h => omega

/-- The number of entries of an array up to the last for which a condition holds, for a condition
    that holds of the first entries and of no other. -/
def boundary {α : Type} (holds : α → Bool) (entries : Array α) : Nat :=
  boundaryWithin (fun i => entries[i]?.any holds) 0 entries.size

/-! ### The index -/

/-- The greatest entry up to each place, and `most` before all of them. -/
def maximaFrom (most : Int) : List Int → List Int
  | [] => []
  | n :: ns => max most n :: maximaFrom (max most n) ns

/-- The greatest entry up to each place. -/
def runningMaxima : List Int → List Int
  | [] => []
  | n :: ns => n :: maximaFrom n ns

/-- Ranges in the order of their starts. -/
structure RangeIndex where
  /-- The ranges. -/
  ranges : Array PaintRange
  /-- For each range how far it and those before it reach. -/
  reach : Array Int
deriving Repr

namespace RangeIndex

/-- No ranges. -/
def empty : RangeIndex := ⟨#[], #[]⟩

/-- The index of some ranges; those with the same start keep their order. -/
def ofList (ranges : List PaintRange) : RangeIndex :=
  let inOrder := ranges.mergeSort fun r s => r.start ≤ s.start
  ⟨inOrder.toArray, (runningMaxima (inOrder.map PaintRange.stop)).toArray⟩

/-- The ranges that may touch a block: not those up to the last place where all of them end before
    it, and not those that start after it. -/
def near (x : RangeIndex) (b : Block) : List PaintRange :=
  let first := boundary (fun (n : Int) => n ≤ b.position) x.reach
  let last := boundary (fun (r : PaintRange) => r.start < b.stop) x.ranges
  (x.ranges.extract first last).toList

end RangeIndex

end LyqlHighlight
