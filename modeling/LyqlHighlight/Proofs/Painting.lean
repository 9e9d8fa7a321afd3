import LyqlHighlight.Proofs.Lists
import LyqlHighlight.Proofs.RangeIndex
import LyqlHighlight.Proofs.Units

namespace LyqlHighlight

/-!
# What the calls for a block do to one unit

Clamped to a block and counted from its start, a range covers the same units of the block as before.
So the calls over a unit of a character are given by the ranges over that character.

* `Highlighter.stylesAt` — the style classes and formats that the calls for a block give to a unit;
* `Highlighter.stylesAt_eq` — they are those of the stored ranges over the unit;
* `PaintRange.ofTree_eq_filter`, `PaintRange.ofTree_eq`, `PaintRange.ascending_inUnits` — the ranges
  of a tree in 16-bit units;
* `Highlighter.stylesAt_setTree` — after a new tree they are those of the ranges of the tree over
  the character.
-/

namespace FormatCall

/-- Whether a call formats a unit, counted from the start of the block. -/
def covers (unit : Int) (c : FormatCall) : Bool :=
  c.start ≤ unit && unit < c.start + c.count

end FormatCall

/-- Whether a range of characters holds the character at position `i`. -/
def StyledRange.covers (i : Int) (r : StyledRange) : Bool :=
  r.start ≤ i && i < r.stop

/-- Whether a range of a document holds a unit. -/
def PaintRange.covers (unit : Int) (r : PaintRange) : Bool :=
  r.start ≤ unit && unit < r.stop

namespace Highlighter

/-- The style classes and formats that the calls for a block give to a unit of the document, in the
    order of the calls. -/
def stylesAt (h : Highlighter) (b : Block) (unit : Int) : List (String × Format) :=
  ((h.paint b).filter (FormatCall.covers (unit - b.position))).map fun c => (c.className, c.format)

/-- The style class with its format, if it has one. -/
def style? (h : Highlighter) (className : String) : Option (String × Format) :=
  (h.formats.get? className).map fun format => (className, format)

variable {h : Highlighter} {b : Block} {unit : Int}

/-- What the call for one range gives to a unit of the block. -/
theorem call?_covers (hlow : b.position ≤ unit) (hhigh : unit < b.stop) (r : PaintRange) :
    ((h.call? b r).toList.filter (FormatCall.covers (unit - b.position))).map
        (fun c => (c.className, c.format)) =
      if r.covers unit then (h.style? r.className).toList else [] := by
  unfold Block.stop at hhigh
  unfold call? style? PaintRange.covers
  cases h.formats.get? r.className with
  | none => simp
  | some format =>
    simp only [Option.bind_some, Option.map_some, Option.toList_some, Bool.and_eq_true,
      decide_eq_true_eq]
    -- The unit lies in the block, so the clamp moves neither bound of the range across it.
    by_cases hcovers : r.start ≤ unit ∧ unit < r.stop
    · have hlt : max 0 (r.start - b.position) < min b.length (r.stop - b.position) := by omega
      have inside : FormatCall.covers (unit - b.position)
          ⟨max 0 (r.start - b.position),
            min b.length (r.stop - b.position) - max 0 (r.start - b.position), r.className,
            format⟩ = true := by
        simp only [FormatCall.covers, Bool.and_eq_true, decide_eq_true_eq]
        omega
      rw [if_pos hcovers, if_pos hlt, Option.toList_some, List.filter_cons_of_pos inside]
      rfl
    · rw [if_neg hcovers]
      split
      · have outside : ¬FormatCall.covers (unit - b.position)
            ⟨max 0 (r.start - b.position),
              min b.length (r.stop - b.position) - max 0 (r.start - b.position), r.className,
              format⟩ = true := by
          simp only [FormatCall.covers, Bool.and_eq_true, decide_eq_true_eq]
          omega
        rw [Option.toList_some, List.filter_cons_of_neg outside]
        rfl
      · rfl

/-- **The calls over a unit.** A unit of a block gets the styles of the stored ranges over it, in
    their order. -/
theorem stylesAt_eq {ranges : List PaintRange} (hx : h.index = .ofList ranges)
    (hlow : b.position ≤ unit) (hhigh : unit < b.stop) :
    h.stylesAt b unit =
      ((sortBy PaintRange.start ranges).filter (PaintRange.covers unit)).filterMap
        fun r => h.style? r.className := by
  unfold stylesAt
  rw [paint_eq_filterMap hx]
  induction sortBy PaintRange.start ranges with
  | nil => rfl
  | cons r l ih =>
    have first := call?_covers (h := h) hlow hhigh r
    rw [filterMap_cons_toList, List.filter_append, List.map_append, ih, first, List.filter_cons]
    split
    · rw [filterMap_cons_toList]
    · rfl

end Highlighter

/-! ### The ranges of a tree in units -/

namespace PaintRange

/-- A range of characters of a text, in 16-bit units. -/
def inUnits (text : List Char) (r : StyledRange) : PaintRange :=
  ⟨Text.unitsBefore text r.start.toNat, Text.unitsBefore text r.stop.toNat, r.rule.className⟩

end PaintRange

/-- The range lies within the text and does not stop before it starts. -/
structure StyledRange.Within (text : List Char) (r : StyledRange) : Prop where
  /-- It starts in the text. -/
  nonneg : 0 ≤ r.start
  /-- It stops at or after its start. -/
  le : r.start ≤ r.stop
  /-- It stops in the text. -/
  stop_le : r.stop ≤ text.length

namespace PaintRange

variable {text : List Char}

theorem ofStyled_eq {r : StyledRange} (hr : r.Within text) :
    ofStyled text r = .ok (inUnits text r) := by
  have hstart : r.start ≤ text.length := le_trans hr.le hr.stop_le
  have hstop : 0 ≤ r.stop := le_trans hr.nonneg hr.le
  unfold ofStyled
  rw [Text.unitOffset_eq text hr.nonneg hstart, Text.unitOffset_eq text hstop hr.stop_le]
  rfl

/-- The ranges of a tree that stop in a text have a place in the document, if they lie within the
    text. -/
theorem ofTree_eq_filter {tree : Tree}
    (hr : ∀ r ∈ tree.styledRanges 0, r.stop ≤ text.length → r.Within text) :
    ofTree tree text = .ok
      (((tree.styledRanges 0).filter fun r => r.stop ≤ (text.length : Int)).map
        (inUnits text)) := by
  apply mapM_eq_ok
  intro r hkept
  obtain ⟨hmem, hstop⟩ := List.mem_filter.mp hkept
  exact ofStyled_eq (hr r hmem (of_decide_eq_true hstop))

/-- The ranges of a tree within a text all have a place in the document. -/
theorem ofTree_eq {tree : Tree} (hr : ∀ r ∈ tree.styledRanges 0, r.Within text) :
    ofTree tree text = .ok ((tree.styledRanges 0).map (inUnits text)) := by
  have all_inside : (tree.styledRanges 0).filter (fun r => r.stop ≤ (text.length : Int)) =
      tree.styledRanges 0 := by
    rw [List.filter_eq_self]
    intro r hmem
    exact decide_eq_true (hr r hmem).stop_le
  rw [ofTree_eq_filter fun r hmem _ => hr r hmem, all_inside]

/-- Where the starts of ranges ascend, they do so in units, too. -/
theorem ascending_inUnits {ranges : List StyledRange}
    (ascending : ranges.Pairwise fun r s => r.start ≤ s.start) :
    (ranges.map (inUnits text)).Pairwise fun r s => r.start ≤ s.start := by
  rw [List.pairwise_map]
  refine ascending.imp fun {r s} hrs => ?_
  have earlier : r.start.toNat ≤ s.start.toNat := by omega
  show (Text.unitsBefore text r.start.toNat : Int) ≤ Text.unitsBefore text s.start.toNat
  exact Int.ofNat_le.mpr (Text.unitsBefore_le_unitsBefore earlier)

/-- A range holds a unit exactly if it holds the character of the unit. -/
theorem covers_inUnits {i : Nat} {unit : Int} (hu : Text.WithinChar text i unit) {r : StyledRange}
    (hr : r.Within text) : (inUnits text r).covers unit = r.covers i := by
  have h := hu.covers_iff (j := r.start.toNat) (k := r.stop.toNat)
  have nonneg := hr.nonneg
  have le := hr.le
  have ints : (r.start.toNat ≤ i ∧ i < r.stop.toNat) ↔ (r.start ≤ i ∧ i < r.stop) := by
    omega
  rw [Bool.eq_iff_iff]
  simp only [covers, StyledRange.covers, Bool.and_eq_true, decide_eq_true_eq]
  exact h.trans ints

end PaintRange

/-! ### The calls after a new tree -/

namespace Highlighter

variable {tree : Tree} {text : String}

theorem setTree_of_ofTree (h : Highlighter) {ranges : List PaintRange}
    (hranges : PaintRange.ofTree tree text.toList = .ok ranges) :
    h.setTree tree text = ({ h with tree, index := .ofList ranges }, none) := by
  unfold setTree
  rw [hranges]

/-- What is left of a tree that is taken in: the tree itself and its ranges. -/
theorem exists_setTree_eq (h : Highlighter) (done : (h.setTree tree text).2 = none) :
    ∃ ranges, PaintRange.ofTree tree text.toList = .ok ranges ∧
      h.setTree tree text = ({ h with tree, index := .ofList ranges }, none) := by
  cases hranges : PaintRange.ofTree tree text.toList with
  | ok ranges => exact ⟨ranges, rfl, h.setTree_of_ofTree hranges⟩
  | error e =>
    unfold setTree at done
    rw [hranges] at done
    cases done

/-- A tree whose ranges lie within the text is taken in without an error. -/
theorem setTree_eq (h : Highlighter)
    (hr : ∀ r ∈ tree.styledRanges 0, r.Within text.toList) :
    h.setTree tree text =
      ({ h with
          tree, index := .ofList ((tree.styledRanges 0).map (PaintRange.inUnits text.toList)) },
        none) :=
  h.setTree_of_ofTree (PaintRange.ofTree_eq hr)

/-- **The calls over a character.** If the ranges of a tree lie within the text and their starts
    ascend, then after the tree is taken in a unit of a block gets the styles of the ranges over its
    character, in the order of the tree. -/
theorem stylesAt_setTree (h : Highlighter)
    (hr : ∀ r ∈ tree.styledRanges 0, r.Within text.toList)
    (ascending : (tree.styledRanges 0).Pairwise fun r s => r.start ≤ s.start)
    {b : Block} {i : Nat} {unit : Int} (hu : Text.WithinChar text.toList i unit)
    (hlow : b.position ≤ unit) (hhigh : unit < b.stop) :
    (h.setTree tree text).1.stylesAt b unit =
      ((tree.styledRanges 0).filter (StyledRange.covers i)).filterMap
        fun r => h.style? r.rule.className := by
  rw [setTree_eq h hr, stylesAt_eq rfl hlow hhigh]
  -- The ranges are in order already, so the stable sort of the index leaves them alone.
  rw [sortBy_of_ascending _ (PaintRange.ascending_inUnits ascending), List.filter_map,
    List.filterMap_map]
  have same : (tree.styledRanges 0).filter
      (PaintRange.covers unit ∘ PaintRange.inUnits text.toList) =
        (tree.styledRanges 0).filter (StyledRange.covers i) := by
    apply List.filter_congr
    intro r hmem
    exact PaintRange.covers_inUnits hu (hr r hmem)
  rw [same]
  rfl

end Highlighter

end LyqlHighlight
