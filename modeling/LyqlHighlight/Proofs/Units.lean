import LyqlHighlight.Proofs.Measures

namespace LyqlHighlight.Text

/-!
# Characters and 16-bit units

A character takes one or two units, and the number of units is a size of texts.

* `unitsBefore`, `measure_units` — the number of units in front of a character;
* `unitsBefore_lt_unitsBefore`, `unitsBefore_le_unitsBefore` — it grows strictly;
* `unitOffset_eq` — `unitOffset` finds it for each position of the text;
* `WithinChar`, `WithinChar.covers_iff` — a unit lies between two positions exactly if its character
  does.
-/

/-- The number of units in front of the character at position `i`. -/
def unitsBefore (text : List Char) (i : Nat) : Nat :=
  units (text.take i)

theorem unitWidth_pos (c : Char) : 0 < unitWidth c := by
  unfold unitWidth
  split <;> decide

/-- The 16-bit units are a size of texts. -/
theorem measure_units : Measure units unitWidth where
  nil := units_nil
  cons := units_cons
  width_pos := unitWidth_pos

@[simp] theorem unitsBefore_length (text : List Char) :
    unitsBefore text text.length = units text := by
  unfold unitsBefore
  rw [List.take_length]

theorem unitsBefore_zero (text : List Char) : unitsBefore text 0 = 0 := rfl

theorem unitsBefore_cons_succ (c : Char) (text : List Char) (i : Nat) :
    unitsBefore (c :: text) (i + 1) = unitWidth c + unitsBefore text i := by
  unfold unitsBefore
  rw [List.take_succ_cons, units_cons]

theorem unitsBefore_le_unitsBefore {text : List Char} {i j : Nat} (h : i ≤ j) :
    unitsBefore text i ≤ unitsBefore text j :=
  measure_units.size_take_le text h

/-- **Growth.** The units in front of a character of the text are fewer than those in front of a
    later one. -/
theorem unitsBefore_lt_unitsBefore {text : List Char} {i j : Nat} (h : i < j)
    (hi : i < text.length) : unitsBefore text i < unitsBefore text j :=
  measure_units.size_take_lt text h hi

/-- There are texts of any length whose units are their characters. -/
theorem exists_units_eq_length (k : Nat) :
    ∃ text : String, text.toList.length = k ∧ units text.toList = text.toList.length := by
  refine ⟨String.ofList (List.replicate k 'a'), ?_, ?_⟩
  · rw [String.toList_ofList, List.length_replicate]
  · rw [String.toList_ofList]
    induction k with
    | zero => rfl
    | succ k ih =>
      rw [List.replicate_succ, units_cons, ih, List.length_cons]
      exact Nat.add_comm 1 _

/-! ### The table -/

/-- **Exactness.** Each position of a text, its end included, is sent to the number of units in
    front of it. -/
theorem unitOffset_eq (text : List Char) {i : Int} (h₀ : 0 ≤ i) (h₁ : i ≤ text.length) :
    unitOffset text i = .ok (unitsBefore text i.toNat) := by
  have hi : i.toNat ≤ text.length := by omega
  unfold unitOffset
  -- A text without characters of two units has no table.
  by_cases same : units text = text.length
  · rw [if_pos same, unitsBefore, measure_units.size_take_eq_self same hi, Int.toNat_of_nonneg h₀]
  · have nonneg : ¬i < 0 := by omega
    rw [if_neg same]
    simp only [entryAt, if_neg nonneg, measure_units.getElem?_runningSums text hi]
    rfl

/-- In a text of as many units as characters each offset stands for itself. -/
theorem unitOffset_of_units_eq {text : List Char} (h : units text = text.length) (i : Int) :
    unitOffset text i = .ok i :=
  if_pos h

/-- A table has an entry at each position, counted from its start or from its end. -/
theorem exists_entryAt_iff {table : List Nat} {i : Int} :
    (∃ entry, entryAt table i = .ok entry) ↔ -(table.length : Int) ≤ i ∧ i < table.length := by
  unfold entryAt
  simp only
  generalize hplace : (if i < 0 then i + table.length else i) = place
  have inside : (0 ≤ place ∧ place < table.length) ↔
      -(table.length : Int) ≤ i ∧ i < table.length := by
    split at hplace <;> omega
  rw [← inside]
  by_cases hneg : place < 0
  · rw [if_pos hneg]
    simp only [reduceCtorEq, exists_false, false_iff]
    omega
  · rw [if_neg hneg]
    by_cases hlt : place.toNat < table.length
    · rw [List.getElem?_eq_getElem hlt]
      exact ⟨fun _ => by omega, fun _ => ⟨_, rfl⟩⟩
    · rw [List.getElem?_eq_none (by omega)]
      simp only [reduceCtorEq, exists_false, false_iff]
      omega

/-- An offset up to the end of a text has a unit, unless the text has a table and the offset counts
    back from its end to before its first entry. -/
theorem exists_unitOffset_iff {text : List Char} {i : Int} (h : i ≤ text.length) :
    (∃ unit, unitOffset text i = .ok unit) ↔
      units text = text.length ∨ -(text.length + 1 : Int) ≤ i := by
  unfold unitOffset
  by_cases same : units text = text.length
  · rw [if_pos same]
    exact ⟨fun _ => .inl same, fun _ => ⟨i, rfl⟩⟩
  · rw [if_neg same, exists_entryAt_iff, length_runningSums, List.length_map, or_iff_right same]
    omega

/-! ### The units of a character -/

/-- The unit `p` belongs to the character at position `i` of the text. -/
structure WithinChar (text : List Char) (i : Nat) (p : Int) : Prop where
  /-- The text has a character there. -/
  lt_length : i < text.length
  /-- The unit does not come before it. -/
  ge : unitsBefore text i ≤ p
  /-- The unit comes before the next one. -/
  lt : p < unitsBefore text (i + 1)

namespace WithinChar

variable {text : List Char} {i : Nat} {p : Int}

/-- A position stands at or before a character exactly if its unit does. -/
theorem unitsBefore_le_iff (h : WithinChar text i p) {j : Nat} :
    (unitsBefore text j : Int) ≤ p ↔ j ≤ i := by
  constructor
  · intro hp
    by_contra hij
    have next : unitsBefore text (i + 1) ≤ unitsBefore text j :=
      unitsBefore_le_unitsBefore (by omega)
    have := h.lt
    omega
  · intro hji
    have before : unitsBefore text j ≤ unitsBefore text i := unitsBefore_le_unitsBefore hji
    have := h.ge
    omega

/-- A unit lies between the units of two positions exactly if its character lies between the
    positions. -/
theorem covers_iff (h : WithinChar text i p) {j k : Nat} :
    ((unitsBefore text j : Int) ≤ p ∧ p < unitsBefore text k) ↔ (j ≤ i ∧ i < k) := by
  have first := h.unitsBefore_le_iff (j := j)
  have last := h.unitsBefore_le_iff (j := k)
  omega

end WithinChar

/-- Each unit of a text belongs to a character. -/
theorem exists_withinChar {text : List Char} {p : Int} (h₀ : 0 ≤ p) (h₁ : p < units text) :
    ∃ i, WithinChar text i p := by
  induction text generalizing p with
  | nil =>
    rw [units_nil] at h₁
    omega
  | cons c text ih =>
    rw [units_cons] at h₁
    by_cases first : p < unitWidth c
    · refine ⟨0, Nat.succ_pos _, ?_, ?_⟩
      · rw [unitsBefore_zero]
        exact h₀
      · rw [unitsBefore_cons_succ, unitsBefore_zero]
        exact first
    · obtain ⟨i, later⟩ := ih (p := p - unitWidth c) (by omega) (by omega)
      have ge := later.ge
      have lt := later.lt
      refine ⟨i + 1, Nat.succ_lt_succ later.lt_length, ?_, ?_⟩
      · rw [unitsBefore_cons_succ]
        omega
      · rw [unitsBefore_cons_succ]
        omega

end LyqlHighlight.Text
