import Mathlib
import LyqlHighlight.Proofs.Painting

namespace LyqlHighlight

/-!
# Painting against a plain scan

A highlighter finds the ranges near a block by bisection, clamps them to the block and counts from
its start.  All this comes to the plain way to paint: look at every stored range in turn, and format
the units that it shares with the block.

* `Block.holds`, `PaintRange.Meets`, `PaintRange.within` — the units that a range shares with a
  block;
* `plainScan` — the plain way to paint a block;
* `Highlighter.paint_setTree_eq_plainScan` — the main result.
-/

/-- Whether a unit of the document lies in a block. -/
def Block.holds (unit : Int) (b : Block) : Bool :=
  b.position ≤ unit && unit < b.stop

theorem Block.holds_iff {unit : Int} {b : Block} :
    b.holds unit = true ↔ b.position ≤ unit ∧ unit < b.stop := by
  rw [holds, Bool.and_eq_true, decide_eq_true_eq, decide_eq_true_eq]

namespace PaintRange

theorem covers_iff {unit : Int} {r : PaintRange} :
    r.covers unit = true ↔ r.start ≤ unit ∧ unit < r.stop := by
  rw [covers, Bool.and_eq_true, decide_eq_true_eq, decide_eq_true_eq]

/-- A range shares some unit with a block. -/
def Meets (r : PaintRange) (b : Block) : Prop :=
  ∃ unit, r.covers unit = true ∧ b.holds unit = true

/-- The part of a range inside a block. -/
def within (r : PaintRange) (b : Block) : PaintRange :=
  { r with start := max r.start b.position, stop := min r.stop b.stop }

variable {r : PaintRange} {b : Block}

/-- The part of a range inside a block holds the units that the two share. -/
theorem covers_within_iff {unit : Int} :
    (r.within b).covers unit = true ↔ r.covers unit = true ∧ b.holds unit = true := by
  rw [covers_iff, covers_iff, Block.holds_iff]
  simp only [within]
  omega

/-- A range shares units with a block exactly if its part inside the block is not empty. -/
theorem meets_iff : r.Meets b ↔ (r.within b).start < (r.within b).stop := by
  unfold Meets
  simp only [← covers_within_iff]
  constructor
  · rintro ⟨unit, inside⟩
    obtain ⟨hstart, hstop⟩ := covers_iff.mp inside
    exact lt_of_le_of_lt hstart hstop
  · intro hlt
    exact ⟨(r.within b).start, covers_iff.mpr ⟨le_refl _, hlt⟩⟩

instance : Decidable (r.Meets b) :=
  decidable_of_iff _ meets_iff.symm

end PaintRange

/-- The plain way to paint a block: each range in turn, if its style class has a format and it shares
    units with the block, formats these units, counted from the start of the block. -/
def plainScan (formats : Table Format) (b : Block) : List PaintRange → List FormatCall
  | [] => []
  | r :: ranges =>
    match formats.get? r.className with
    | none => plainScan formats b ranges
    | some format =>
      if r.Meets b then
        ⟨(r.within b).start - b.position, (r.within b).stop - (r.within b).start, r.className,
          format⟩ :: plainScan formats b ranges
      else plainScan formats b ranges

/-- The calls of a plain scan stay inside the block, and none of them is empty. -/
theorem bounds_of_mem_plainScan {formats : Table Format} {b : Block} {ranges : List PaintRange}
    {c : FormatCall} (h : c ∈ plainScan formats b ranges) :
    0 ≤ c.start ∧ 0 < c.count ∧ c.start + c.count ≤ b.length := by
  induction ranges with
  | nil => exact absurd h List.not_mem_nil
  | cons r ranges ih =>
    rw [plainScan] at h
    split at h
    · exact ih h
    split at h
    · next meets =>
      rcases List.mem_cons.mp h with rfl | h
      · have some := PaintRange.meets_iff.mp meets
        simp only [PaintRange.within, Block.stop] at some ⊢
        omega
      · exact ih h
    · exact ih h

namespace Highlighter

/-- A range that shares units with a block is clamped to these units. -/
theorem call?_eq_ite (h : Highlighter) (b : Block) (r : PaintRange) :
    h.call? b r = (h.formats.get? r.className).bind fun format =>
      if r.Meets b then
        some ⟨(r.within b).start - b.position, (r.within b).stop - (r.within b).start, r.className,
          format⟩
      else none := by
  unfold call?
  refine congrArg _ (funext fun format => ?_)
  -- The clamp counts from the start of the block, the shared part from that of the document.
  have start : max 0 (r.start - b.position) = (r.within b).start - b.position := by
    simp only [PaintRange.within]
    omega
  have stop : min b.length (r.stop - b.position) = (r.within b).stop - b.position := by
    simp only [PaintRange.within, Block.stop]
    omega
  have count : (r.within b).stop - b.position - ((r.within b).start - b.position) =
      (r.within b).stop - (r.within b).start := by
    omega
  have shared : (r.within b).start - b.position < (r.within b).stop - b.position ↔ r.Meets b := by
    rw [PaintRange.meets_iff]
    omega
  simp only [start, stop, count, shared]

theorem filterMap_call?_eq_plainScan (h : Highlighter) (b : Block) (ranges : List PaintRange) :
    ranges.filterMap (h.call? b) = plainScan h.formats b ranges := by
  induction ranges with
  | nil => rfl
  | cons r ranges ih =>
    rw [filterMap_cons_toList, call?_eq_ite, plainScan, ih]
    cases h.formats.get? r.className with
    | none => rfl
    | some format =>
      rw [Option.bind_some]
      split <;> rfl

/-- **Painting is the plain scan.**  Once a tree is taken in for a text, the stored ranges are those
    of the tree in the text in the order of their starts; and with whatever formats there are, the
    calls for a block are those of a plain scan over the stored ranges.  They stay inside the block,
    and none of them is empty. -/
theorem paint_setTree_eq_plainScan (h : Highlighter) {tree : Tree} {text : String}
    (done : (h.setTree tree text).2 = none) (formats : Table Format) (b : Block) :
    let shown := (h.setTree tree text).1
    let calls := { shown with formats }.paintCurrent (some b)
    (∃ ranges, PaintRange.ofTree tree text.toList = .ok ranges ∧
      shown.index.ranges.toList = sortBy PaintRange.start ranges) ∧
    calls = plainScan formats b shown.index.ranges.toList ∧
    ∀ c ∈ calls, 0 ≤ c.start ∧ 0 < c.count ∧ c.start + c.count ≤ b.length := by
  intro shown calls
  obtain ⟨ranges, hranges, taken⟩ := h.exists_setTree_eq done
  have index : shown.index = .ofList ranges := by
    show (h.setTree tree text).1.index = _
    rw [taken]
  have stored : shown.index.ranges.toList = sortBy PaintRange.start ranges := by
    rw [index]
    rfl
  have painted : calls = plainScan formats b shown.index.ranges.toList := by
    show paint { shown with formats } b = _
    rw [paint_eq_filterMap (h := { shown with formats }) index, filterMap_call?_eq_plainScan, stored]
  refine ⟨⟨ranges, hranges, stored⟩, painted, fun c hc => ?_⟩
  rw [painted] at hc
  exact bounds_of_mem_plainScan hc

/-- A long string, a short one inside it, and a symbol behind both. -/
def longAndShort : Tree :=
  .node .blank
    [(0, .node ⟨"String", 1, some ⟨"String", .string, "cm-string"⟩⟩
        [(1, .node ⟨"Number", 2, some ⟨"Number", .number, "cm-number"⟩⟩ [] 1)] 7),
      (8, .node ⟨"Symbol", 3, some ⟨"Symbol", .operator, "cm-symbol"⟩⟩ [] 1)]
    9

/-- Formats for strings and symbols only. -/
def someFormats : Table Format :=
  .ofList [("cm-string", {}), ("cm-symbol", {})]

/-- In the second line of a text only the long range shows, and the last one, whose first character
    takes two units.  The short range lies in the first line, and its class has no format. -/
theorem paint_setTree_longAndShort :
    (setTree { formats := .empty } longAndShort "abc\ndefg𝒳").2 = none ∧
      ∃ calls, calls = paintCurrent
          { (setTree { formats := .empty } longAndShort "abc\ndefg𝒳").1 with
            formats := someFormats } (some ⟨4, 7⟩) ∧
        calls.map (fun c => (c.start, c.count, c.className)) =
          [(0, 3, "cm-string"), (4, 2, "cm-symbol")] := by
  have done : (setTree { formats := .empty } longAndShort "abc\ndefg𝒳").2 = none := by cbv
  obtain ⟨-, painted, -⟩ := paint_setTree_eq_plainScan _ done someFormats ⟨4, 7⟩
  refine ⟨done, _, rfl, ?_⟩
  rw [painted]
  cbv

end Highlighter

end LyqlHighlight
