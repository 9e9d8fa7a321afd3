import LyqlHighlight.Proofs.Measures
import LyqlHighlight.Proofs.Nesting

namespace LyqlHighlight

/-!
# Characters and bytes

The UTF-8 form of a character has at least one byte, and the number of bytes is a size of texts.  So
the bytes at which characters start stand in the order of the characters, and a byte offset that is
looked up is either one of them or refused.

* `Text.StartsAt`, `Text.IsBoundary` — the byte at which a character starts;
* `Text.StartsAt.le_iff` — characters start one after the other;
* `Text.charOffset_of_startsAt`, `Text.charOffset_of_not_isBoundary` — what `charOffset` finds;
* `Span.Encodes` — a span of characters and the bytes of their UTF-8 form;
* `Span.Encodes.inside_iff`, `Span.Encodes.behind_iff`, `Span.Encodes.apart_iff` — spans are related
  as their bytes are.
-/

namespace Text

theorem encode_append (s t : List Char) : encode (s ++ t) = encode s ++ encode t :=
  List.flatMap_append

/-- The bytes are a size of texts. -/
theorem measure_bytes : Measure (fun text => (encode text).length) Char.utf8Size where
  nil := rfl
  cons c text := by
    show (encode (c :: text)).length = _
    rw [encode, List.flatMap_cons, List.length_append, String.length_utf8EncodeChar]
    rfl
  width_pos := Char.utf8Size_pos

/-- The ASCII characters are those of one byte. -/
theorem utf8Size_eq_one_iff_lt {c : Char} : c.utf8Size = 1 ↔ c.toNat < 128 := by
  rw [Char.utf8Size_eq_one_iff, UInt32.le_iff_toNat_le]
  exact Nat.lt_succ_iff.symm

/-- A text has as many bytes as characters exactly if all of them are ASCII characters. -/
theorem length_encode_eq_iff {text : List Char} :
    (encode text).length = text.length ↔ ∀ c ∈ text, c.toNat < 128 := by
  rw [measure_bytes.size_eq_length_iff]
  simp only [utf8Size_eq_one_iff_lt]

/-! ### Where characters start -/

/-- The character at position `i` of the text starts at byte `b`, or the text ends there. -/
structure StartsAt (text : List Char) (b i : Int) : Prop where
  /-- The position is not negative. -/
  nonneg : 0 ≤ i
  /-- It is at most the end of the text. -/
  le_length : i ≤ text.length
  /-- So many bytes are in front of it. -/
  bytes_eq : b = (encode (text.take i.toNat)).length

/-- A character of the text starts at byte `b`, or the text ends there. -/
def IsBoundary (text : List Char) (b : Int) : Prop :=
  ∃ i, StartsAt text b i

namespace StartsAt

variable {text : List Char} {b b' i i' : Int}

/-- **Order.** Characters start one after the other. -/
theorem le_iff (h : StartsAt text b i) (h' : StartsAt text b' i') : b ≤ b' ↔ i ≤ i' := by
  obtain ⟨nonneg, le_length, rfl⟩ := h
  obtain ⟨nonneg', le_length', rfl⟩ := h'
  constructor
  · intro hb
    by_contra hlt
    have growth := measure_bytes.size_take_lt text (show i'.toNat < i.toNat by omega) (by omega)
    omega
  · intro hi
    have growth := measure_bytes.size_take_le text (show i.toNat ≤ i'.toNat by omega)
    omega

end StartsAt

/-- **Exactness.** The byte at which a character starts is sent to the position of the character. -/
theorem charOffset_of_startsAt {text : List Char} {b i : Int} (h : StartsAt text b i) :
    charOffset text b = .ok i := by
  obtain ⟨nonneg, le_length, rfl⟩ := h
  have hi : i.toNat ≤ text.length := by omega
  unfold charOffset
  by_cases same : (encode text).length = text.length
  · -- Each character has one byte.
    rw [if_pos same, measure_bytes.size_take_eq_self same hi, Int.toNat_of_nonneg nonneg]
  · have found : (runningSums (text.map Char.utf8Size)).idxOf? (encode (text.take i.toNat)).length =
        some i.toNat := by
      have entry := measure_bytes.getElem?_runningSums text hi
      obtain ⟨hlt, hget⟩ := List.getElem?_eq_some_iff.mp entry
      refine List.idxOf?_eq_some_iff.mpr ⟨hlt, hget, fun j hj hsame => ?_⟩
      -- An earlier entry is smaller.
      have earlier := measure_bytes.getElem?_runningSums text (i := j) (by omega)
      have smaller := measure_bytes.size_take_lt text hj (by omega)
      rw [List.getElem?_eq_getElem (by omega), Option.some.injEq] at earlier
      omega
    rw [if_neg same, Int.toNat_natCast, found]
    simp only [Int.toNat_of_nonneg nonneg]
    rw [if_neg (by omega)]

/-- **Refusal.** In a text that is not made of ASCII characters only, no other byte is sent
    anywhere. -/
theorem charOffset_of_not_isBoundary {text : List Char} {b : Int}
    (wide : (encode text).length ≠ text.length) (h : ¬IsBoundary text b) :
    charOffset text b = .error (.insideCharacter b) := by
  unfold charOffset
  rw [if_neg wide]
  cases found : (runningSums (text.map Char.utf8Size)).idxOf? b.toNat with
  | none => rfl
  | some i =>
    -- Such an entry is the start of a character, unless the offset is negative.
    obtain ⟨hlt, hget, -⟩ := List.idxOf?_eq_some_iff.mp found
    rw [length_runningSums, List.length_map] at hlt
    have entry := measure_bytes.getElem?_runningSums text (i := i) (by omega)
    rw [List.getElem?_eq_getElem (by rwa [length_runningSums, List.length_map]),
      Option.some.injEq, hget] at entry
    have negative : b < 0 := by
      by_contra nonneg
      refine h ⟨i, by omega, by omega, ?_⟩
      rw [Int.toNat_natCast]
      omega
    simp only [if_pos negative]

end Text

/-! ### Spans of characters and of bytes -/

namespace Span

open Text

/-- The UTF-8 form of the characters in the first span of a text are the bytes in the second one. -/
structure Encodes (text : List Char) (chars bytes : Span) : Prop where
  /-- The bytes start where the characters do. -/
  start : StartsAt text bytes.start chars.start
  /-- They stop where the characters do. -/
  stop : StartsAt text bytes.stop chars.stop
  /-- The bytes are those of the characters. -/
  bytes_eq : encode (text.extract chars.start.toNat chars.stop.toNat) =
    (encode text).extract bytes.start.toNat bytes.stop.toNat

namespace Encodes

variable {text : List Char}

/-- The bytes are those of the characters if they start and stop where the characters do. -/
theorem of_startsAt {chars bytes : Span} (start : StartsAt text bytes.start chars.start)
    (stop : StartsAt text bytes.stop chars.stop) : chars.Encodes text bytes := by
  refine ⟨start, stop, ?_⟩
  rw [start.bytes_eq, stop.bytes_eq, Int.toNat_natCast, Int.toNat_natCast, List.extract_eq_take_drop,
    List.extract_eq_take_drop]
  generalize chars.start.toNat = i
  generalize chars.stop.toNat = j
  -- The bytes behind the start are those of the text behind it.
  have behind : (encode text).drop (encode (text.take i)).length = encode (text.drop i) := by
    conv_lhs => rw [← List.take_append_drop i text, encode_append]
    rw [List.take_append_drop, List.drop_left]
  rw [behind]
  by_cases hij : i ≤ j
  · obtain ⟨n, rfl⟩ := Nat.exists_eq_add_of_le hij
    have between := measure_bytes.size_take_add text i n
    rw [between, Nat.add_sub_cancel_left, Nat.add_sub_cancel_left]
    conv_rhs => rw [← List.take_append_drop n (text.drop i), encode_append]
    rw [List.take_append_drop, List.take_left]
  · have backward := measure_bytes.size_take_le text (show j ≤ i by omega)
    rw [Nat.sub_eq_zero_of_le backward, Nat.sub_eq_zero_of_le (by omega)]
    rfl

variable {s t r q : Span}

/-- One span lies inside another one exactly if its bytes do. -/
theorem inside_iff (h : s.Encodes text r) (h' : t.Encodes text q) : s.Inside t ↔ r.Inside q := by
  rw [Span.inside_iff, Span.inside_iff, h'.start.le_iff h.start, h.stop.le_iff h'.stop]

/-- One span stops before another one starts exactly if its bytes do. -/
theorem behind_iff (h : s.Encodes text r) (h' : t.Encodes text q) :
    s.stop ≤ t.start ↔ r.stop ≤ q.start :=
  (h.stop.le_iff h'.start).symm

/-- Two spans are apart exactly if their bytes are. -/
theorem apart_iff (h : s.Encodes text r) (h' : t.Encodes text q) : s.Apart t ↔ r.Apart q := by
  rw [Span.apart_iff, Span.apart_iff, h.stop.le_iff h.start, h'.stop.le_iff h'.start,
    h.stop.le_iff h'.start, h'.stop.le_iff h.start]

end Encodes

end Span

end LyqlHighlight
