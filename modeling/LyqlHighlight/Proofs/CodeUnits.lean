import LyqlHighlight.Proofs.Units

namespace LyqlHighlight.Text

/-!
# The 16-bit form of a text

A document stores a character up to `U+FFFF` as one 16-bit unit, and every other one as two
surrogates.  The offset of a position is the length of this form in front of it.  So it never comes
between the two surrogates of a character, whether the offsets are looked up in a table or every
position stands for itself.

* `codeUnits`, `encode16` — the 16-bit form of a character, and of a text;
* `length_encode16` — the number of units of a text is the length of its 16-bit form;
* `units_eq_length_iff` — it is the number of characters only if no character takes two units;
* `SplitsPair`, `not_splitsPair_append` — the places between the two surrogates of a character, and
  that no character starts there;
* `unitOffset_encode16` — what offsets are.
-/

/-! ### The form -/

/-- The 16-bit form of a character: one unit, or two surrogates that carry ten bits each. -/
def codeUnits (c : Char) : List UInt16 :=
  if c.toNat < 0x10000 then [.ofNat c.toNat]
  else [.ofNat (0xD800 + (c.toNat - 0x10000) / 0x400), .ofNat (0xDC00 + (c.toNat - 0x10000) % 0x400)]

/-- The 16-bit form of a text. -/
def encode16 (text : List Char) : List UInt16 :=
  text.flatMap codeUnits

example : encode16 ['a', '😀'] = [0x61, 0xD83D, 0xDE00] := by decide

@[simp] theorem encode16_cons (c : Char) (text : List Char) :
    encode16 (c :: text) = codeUnits c ++ encode16 text :=
  List.flatMap_cons

theorem encode16_append (s t : List Char) : encode16 (s ++ t) = encode16 s ++ encode16 t :=
  List.flatMap_append

theorem length_codeUnits (c : Char) : (codeUnits c).length = unitWidth c := by
  unfold codeUnits unitWidth
  split <;> rfl

/-- The units of a text are those of its 16-bit form. -/
theorem length_encode16 (text : List Char) : (encode16 text).length = units text := by
  induction text with
  | nil => rfl
  | cons c text ih => rw [encode16_cons, List.length_append, length_codeUnits, ih, units_cons]

theorem unitWidth_eq_one_iff {c : Char} : unitWidth c = 1 ↔ c.toNat < 0x10000 := by
  unfold unitWidth
  split <;> simp_all

/-- A text has as many units as characters exactly if each character takes one. -/
theorem units_eq_length_iff {text : List Char} :
    units text = text.length ↔ ∀ c ∈ text, c.toNat < 0x10000 := by
  rw [measure_units.size_eq_length_iff]
  simp only [unitWidth_eq_one_iff]

/-! ### Surrogates -/

/-- The first unit of a character of two. -/
def IsHighSurrogate (u : UInt16) : Prop :=
  0xD800 ≤ u.toNat ∧ u.toNat ≤ 0xDBFF

/-- The second unit of a character of two. -/
def IsLowSurrogate (u : UInt16) : Prop :=
  0xDC00 ≤ u.toNat ∧ u.toNat ≤ 0xDFFF

/-- The place in front of unit `j` lies between the two surrogates of a character. -/
def SplitsPair (form : List UInt16) (j : Nat) : Prop :=
  ∃ front high low back, form = front ++ high :: low :: back ∧ j = front.length + 1 ∧
    IsHighSurrogate high ∧ IsLowSurrogate low

/-- No character starts with a low surrogate. -/
theorem not_isLowSurrogate_codeUnits {c : Char} {u : UInt16} (h : u ∈ (codeUnits c).head?) :
    ¬IsLowSurrogate u := by
  -- The surrogates themselves are no characters.
  have valid : c.toNat < 0xD800 ∨ (0xDFFF < c.toNat ∧ c.toNat < 0x110000) := c.valid
  unfold codeUnits at h
  unfold IsLowSurrogate
  split at h
  · obtain rfl := Option.some.inj h
    rw [UInt16.toNat_ofNat']
    omega
  · obtain rfl := Option.some.inj h
    rw [UInt16.toNat_ofNat']
    omega

theorem not_isLowSurrogate_encode16 {text : List Char} {u : UInt16}
    (h : u ∈ (encode16 text).head?) : ¬IsLowSurrogate u := by
  cases text with
  | nil => contradiction
  | cons c text =>
    have some : codeUnits c ≠ [] := by
      rw [← List.length_pos_iff, length_codeUnits]
      exact unitWidth_pos c
    rw [encode16_cons, List.head?_append_of_ne_nil _ some] at h
    exact not_isLowSurrogate_codeUnits h

/-- The place between the forms of two texts is not one between two surrogates. -/
theorem not_splitsPair_append (s t : List Char) :
    ¬SplitsPair (encode16 (s ++ t)) (encode16 s).length := by
  rintro ⟨front, high, low, back, whole, place, -, isLow⟩
  -- The low surrogate would be the first unit of the second text.
  have first : (encode16 t).head? = some low := by
    have units : (encode16 s ++ encode16 t)[(encode16 s).length]? = some low := by
      rw [← encode16_append, whole, place, List.append_cons, List.getElem?_append_right (by simp)]
      simp
    rw [List.getElem?_append_right (Nat.le_refl _), Nat.sub_self] at units
    rw [List.head?_eq_getElem?, units]
  exact not_isLowSurrogate_encode16 first isLow

/-! ### Offsets -/

/-- **Offsets.** The offset of a position of a text, its end included, is the length of the 16-bit
    form in front of it.  It is less than the offset of each later position, at the end it is the
    number of units of the text, and it never lies between the two surrogates of a character.  Each
    position stands for itself if no character takes two units, which is where the text has as many
    units as characters. -/
theorem unitOffset_encode16 (text : String) {i : Int} (h₀ : 0 ≤ i) (h₁ : i ≤ text.length) :
    ∃ j : Nat, unitOffset text.toList i = .ok j ∧
      j = (encode16 (text.toList.take i.toNat)).length ∧
      (∀ k : Int, i < k → k ≤ text.length →
        ∃ m : Nat, unitOffset text.toList k = .ok m ∧ j < m) ∧
      (i = text.length → j = units text.toList) ∧
      units text.toList = (encode16 text.toList).length ∧
      ¬SplitsPair (encode16 text.toList) j ∧
      ((∀ c ∈ text.toList, c.toNat < 0x10000) → j = i) ∧
      (units text.toList = text.length ↔ ∀ c ∈ text.toList, c.toNat < 0x10000) := by
  rw [← String.length_toList] at h₁ ⊢
  have exact : unitsBefore text.toList i.toNat = (encode16 (text.toList.take i.toNat)).length := by
    rw [length_encode16, unitsBefore]
  refine ⟨_, unitOffset_eq text.toList h₀ h₁, exact, fun k hik hk => ?_, fun atEnd => ?_,
    (length_encode16 _).symm, ?_, fun single => ?_, units_eq_length_iff⟩
  · refine ⟨_, unitOffset_eq text.toList (by omega) hk, ?_⟩
    exact unitsBefore_lt_unitsBefore (by omega) (by omega)
  · rw [atEnd, Int.toNat_natCast, unitsBefore_length]
  · rw [exact]
    have apart := not_splitsPair_append (text.toList.take i.toNat) (text.toList.drop i.toNat)
    rwa [List.take_append_drop] at apart
  · have self := unitOffset_eq text.toList h₀ h₁
    rw [unitOffset_of_units_eq (units_eq_length_iff.mpr single)] at self
    exact (Except.ok.inj self).symm

/-- Behind a character of two units the offset is one more than the position. -/
theorem unitOffset_encode16_smile :
    ∃ j : Nat, unitOffset "a😀b".toList 2 = .ok j ∧ j = (encode16 ['a', '😀']).length ∧
      ¬SplitsPair (encode16 "a😀b".toList) j ∧
      ∃ m : Nat, unitOffset "a😀b".toList 3 = .ok m ∧ j < m := by
  obtain ⟨j, offset, exact, later, -, -, apart, -⟩ :=
    unitOffset_encode16 "a😀b" (i := 2) (by decide) (by decide)
  exact ⟨j, offset, exact, apart, later 3 (by decide) (by decide)⟩

end LyqlHighlight.Text
