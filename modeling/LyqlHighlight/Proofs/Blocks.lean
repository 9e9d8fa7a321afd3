import LyqlHighlight.Paint.Block
import LyqlHighlight.Proofs.Lists
import LyqlHighlight.Proofs.Units

namespace LyqlHighlight

/-!
# The blocks of a text

The lines of a text with their ends take one unit more than the text, and its blocks follow one
another without gaps.  So each unit of a text has a block.

* `unitsOfLines_lines` — the units of the lines;
* `Block.exists_ofText`, `Block.eq_of_mem_ofText` — each unit has a block, and only one.
-/

/-- The number of units of some lines, with one for the end of each. -/
def unitsOfLines : List (List Char) → Nat
  | [] => 0
  | line :: others => Text.units line + 1 + unitsOfLines others

/-- The lines of a text with their ends take a unit more than the text. -/
theorem unitsOfLines_lines (text : List Char) :
    unitsOfLines (lines text) = Text.units text + 1 := by
  induction text with
  | nil => rfl
  | cons c text ih =>
    rw [lines, Text.units_cons]
    split
    · next newline =>
      subst newline
      have one : Text.unitWidth '\n' = 1 := rfl
      rw [unitsOfLines, ih, one, Text.units_nil]
      omega
    · cases hlines : lines text with
      | nil => exact absurd hlines (lines_ne_nil text)
      | cons line others =>
        rw [hlines, unitsOfLines] at ih
        show unitsOfLines ((c :: line) :: others) = _
        rw [unitsOfLines, Text.units_cons]
        omega

namespace Block

/-- The blocks of consecutive lines hold all units from the first line to the last. -/
theorem exists_ofLines (lines : List (List Char)) {position unit : Int} (hlow : position ≤ unit)
    (hhigh : unit < position + unitsOfLines lines) :
    ∃ b ∈ ofLines position lines, b.position ≤ unit ∧ unit < b.stop := by
  -- The position is general: the other lines start where the first one stops.
  induction lines generalizing position with
  | nil =>
    have none : unitsOfLines [] = 0 := rfl
    omega
  | cons line others ih =>
    rw [unitsOfLines] at hhigh
    by_cases first : unit < position + (Text.units line + 1)
    · exact ⟨_, List.mem_cons_self, hlow, first⟩
    · have next : position + ((Text.units line : Int) + 1) ≤ unit := by omega
      obtain ⟨b, hb, holds⟩ := ih next (by omega)
      exact ⟨b, List.mem_cons_of_mem _ hb, holds⟩

/-- Each unit of a text belongs to a block. -/
theorem exists_ofText {text : List Char} {unit : Int} (h₀ : 0 ≤ unit)
    (h₁ : unit < Text.units text) :
    ∃ b ∈ ofText text, b.position ≤ unit ∧ unit < b.stop := by
  refine exists_ofLines (lines text) h₀ ?_
  rw [unitsOfLines_lines]
  omega

theorem position_le_of_mem_ofLines {lines : List (List Char)} {position : Int} {b : Block}
    (h : b ∈ ofLines position lines) : position ≤ b.position := by
  induction lines generalizing position with
  | nil => contradiction
  | cons line others ih =>
    rcases List.mem_cons.mp h with rfl | h
    · exact Int.le_refl _
    · have behind := ih h
      simp only [stop] at behind
      omega

/-- **Order.** Each block of a text stops before the later ones start. -/
theorem ofText_ascending (text : List Char) :
    (ofText text).Pairwise fun b c => b.stop ≤ c.position := by
  unfold ofText
  generalize lines text = lines
  generalize (0 : Int) = position
  induction lines generalizing position with
  | nil => exact .nil
  | cons line others ih =>
    refine List.pairwise_cons.mpr ⟨fun c hc => ?_, ih _⟩
    exact position_le_of_mem_ofLines hc

/-- Two blocks of a text do not share a unit. -/
theorem eq_of_mem_ofText {text : List Char} {b c : Block} (hb : b ∈ ofText text)
    (hc : c ∈ ofText text) {unit : Int} (inB : b.position ≤ unit ∧ unit < b.stop)
    (inC : c.position ≤ unit ∧ unit < c.stop) : c = b := by
  have only : (ofText text).filter (fun d => d.position ≤ unit ∧ unit < d.stop) = [b] := by
    apply filter_eq_singleton (ofText_ascending text) hb (decide_eq_true inB)
    · intro d hd
      rw [decide_eq_true_eq]
      omega
    · intro d hd
      rw [decide_eq_true_eq]
      omega
  have kept : c ∈ (ofText text).filter (fun d => d.position ≤ unit ∧ unit < d.stop) :=
    List.mem_filter.mpr ⟨hc, decide_eq_true inC⟩
  rw [only] at kept
  exact List.mem_singleton.mp kept

end Block

end LyqlHighlight
