import LyqlHighlight.Text.Offset
import Mathlib.Data.List.Basic

namespace LyqlHighlight.Text

/-!
# Sizes of texts

A text has a size in 16-bit units, and one in bytes.  Either adds up the widths of the characters,
none of which is zero.  So what stands in front of a character grows with its position, and the
table of running sums holds it for each position.

* `Measure` — such sizes;
* `Measure.size_take_lt`, `Measure.size_take_le` — the size in front of a position grows;
* `Measure.size_eq_length_iff` — the size is the number of characters if each of them takes one;
* `Measure.size_take_eq_self` — then the size in front of a position is the position;
* `Measure.getElem?_runningSums` — the table of running sums.
-/

/-- A size of texts that adds up the widths of the characters, each of which takes some space. -/
structure Measure (size : List Char → Nat) (width : Char → Nat) : Prop where
  /-- The empty text takes none. -/
  nil : size [] = 0
  /-- A character in front adds its width. -/
  cons : ∀ c text, size (c :: text) = width c + size text
  /-- No width is zero. -/
  width_pos : ∀ c, 0 < width c

namespace Measure

variable {size : List Char → Nat} {width : Char → Nat}

theorem size_append (m : Measure size width) (s t : List Char) :
    size (s ++ t) = size s + size t := by
  induction s with
  | nil => rw [List.nil_append, m.nil, Nat.zero_add]
  | cons c s ih => rw [List.cons_append, m.cons, ih, m.cons, Nat.add_assoc]

theorem length_le_size (m : Measure size width) (text : List Char) : text.length ≤ size text := by
  induction text with
  | nil => exact Nat.zero_le _
  | cons c text ih =>
    have := m.width_pos c
    rw [List.length_cons, m.cons]
    omega

/-- The size is the number of characters exactly if each character takes one. -/
theorem size_eq_length_iff (m : Measure size width) {text : List Char} :
    size text = text.length ↔ ∀ c ∈ text, width c = 1 := by
  induction text with
  | nil => simp [m.nil]
  | cons c text ih =>
    -- No character makes up for another one that takes more.
    have own := m.width_pos c
    have others := m.length_le_size text
    rw [List.forall_mem_cons, ← ih, m.cons, List.length_cons]
    omega

/-- The size in front of a position is the one in front of an earlier position, and what is
    between. -/
theorem size_take_add (m : Measure size width) (text : List Char) (i n : Nat) :
    size (text.take (i + n)) = size (text.take i) + size ((text.drop i).take n) := by
  rw [List.take_add, m.size_append]

theorem size_take_le (m : Measure size width) (text : List Char) {i j : Nat} (h : i ≤ j) :
    size (text.take i) ≤ size (text.take j) := by
  obtain ⟨n, rfl⟩ := Nat.exists_eq_add_of_le h
  rw [m.size_take_add]
  omega

/-- **Growth.** The size in front of a character of the text is less than the one in front of a
    later position. -/
theorem size_take_lt (m : Measure size width) (text : List Char) {i j : Nat} (h : i < j)
    (hi : i < text.length) : size (text.take i) < size (text.take j) := by
  obtain ⟨n, rfl⟩ := Nat.exists_eq_add_of_lt h
  have between := m.length_le_size ((text.drop i).take (n + 1))
  rw [List.length_take, List.length_drop] at between
  rw [Nat.add_assoc, m.size_take_add]
  omega

/-- If the whole text has the size of its length, so has each part in front of a position. -/
theorem size_take_eq_self (m : Measure size width) {text : List Char} (h : size text = text.length)
    {i : Nat} (hi : i ≤ text.length) : size (text.take i) = i := by
  -- No part of the text can make up for another one that is longer than its characters.
  have whole := m.size_append (text.take i) (text.drop i)
  have front := m.length_le_size (text.take i)
  have back := m.length_le_size (text.drop i)
  rw [List.take_append_drop] at whole
  rw [List.length_take] at front
  rw [List.length_drop] at back
  omega

private theorem getElem?_runningSums_go (m : Measure size width) (text : List Char) (total i : Nat)
    (h : i ≤ text.length) :
    (runningSums.go total (text.map width))[i]? = some (total + size (text.take i)) := by
  -- The total is general: the sums of the rest start where the first character ends.
  induction text generalizing total i with
  | nil =>
    obtain rfl : i = 0 := Nat.le_zero.mp h
    rw [List.take_zero, m.nil]
    rfl
  | cons c text ih =>
    cases i with
    | zero =>
      rw [List.take_zero, m.nil]
      rfl
    | succ i =>
      show (runningSums.go (total + width c) (text.map width))[i]? = _
      rw [ih (total + width c) i (Nat.le_of_succ_le_succ h), List.take_succ_cons, m.cons,
        Nat.add_assoc]

/-- **The table.** The running sums of the widths are the sizes in front of each position. -/
theorem getElem?_runningSums (m : Measure size width) (text : List Char) {i : Nat}
    (h : i ≤ text.length) : (runningSums (text.map width))[i]? = some (size (text.take i)) := by
  have entry := m.getElem?_runningSums_go text 0 i h
  rw [Nat.zero_add] at entry
  exact entry

end Measure

private theorem length_runningSums_go (total : Nat) (widths : List Nat) :
    (runningSums.go total widths).length = widths.length + 1 := by
  induction widths generalizing total with
  | nil => rfl
  | cons w widths ih =>
    show (runningSums.go (total + w) widths).length + 1 = _
    rw [ih, List.length_cons]

theorem length_runningSums (widths : List Nat) :
    (runningSums widths).length = widths.length + 1 :=
  length_runningSums_go 0 widths

end LyqlHighlight.Text
