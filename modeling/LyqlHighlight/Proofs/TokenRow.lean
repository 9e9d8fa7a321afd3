import LyqlHighlight.Proofs.Decomposition
import LyqlHighlight.Proofs.Lists
import LyqlHighlight.Proofs.Nesting

namespace LyqlHighlight.Lexical

/-!
# The tokens of a text stand in a row

Tokens keep the order of the text and share no characters, so a character belongs to one token or to
a space or a comment.

* `width` — the number of characters of a row of pieces;
* `tokensOf_ascending`, `tokensOf_within` — tokens stop before the next one starts, and lie within
  their row;
* `filter_covers_eq_singleton` — a character of a token belongs to no other one;
* `Blank`, `Blank.not_covers`, `blank_or_covers` — the characters of spaces and comments, which are
  those that no token holds.
-/

/-- The number of characters of a row of pieces. -/
def width (parts : List Part) : Nat :=
  (parts.flatMap Part.text).length

@[simp] theorem width_nil : width [] = 0 := rfl

@[simp] theorem width_cons (part : Part) (parts : List Part) :
    width (part :: parts) = part.text.length + width parts := by
  unfold width
  rw [List.flatMap_cons, List.length_append]

theorem Decomposition.width_eq {text : List Char} {parts : List Part}
    (h : Decomposition text parts) : width parts = text.length := by
  unfold width
  rw [h.flatMap_text]

/-- The place of a token in its text. -/
def Token.span (t : Token) : Span :=
  ⟨t.start, t.stop⟩

theorem Token.covers_iff {t : Token} {i : Nat} :
    t.span.covers i = true ↔ t.start ≤ i ∧ i < t.stop := by
  rw [Span.covers_iff]
  show (t.start : Int) ≤ i ∧ (i : Int) < t.stop ↔ _
  omega

/-- What stands behind some pieces is reported as before, at its place. -/
theorem tokensOf_append (afterDot : Bool) (start : Nat) (before after : List Part) :
    ∃ afterDot', tokensOf afterDot start (before ++ after) =
      tokensOf afterDot start before ++ tokensOf afterDot' (start + width before) after := by
  -- What the tokens so far tell the rest is only whether the last one is a dot.
  induction before generalizing afterDot start with
  | nil => exact ⟨afterDot, rfl⟩
  | cons part before ih =>
    rw [List.cons_append, tokensOf, tokensOf, width_cons, ← Nat.add_assoc]
    cases part.tag? afterDot with
    | none => exact ih afterDot (start + part.text.length)
    | some tag =>
      obtain ⟨afterDot', h⟩ := ih (part.text = ['.']) (start + part.text.length)
      exact ⟨afterDot', congrArg (_ :: ·) h⟩

/-- Tokens lie within their row. -/
theorem tokensOf_within {afterDot : Bool} {start : Nat} {parts : List Part} {t : Token}
    (h : t ∈ tokensOf afterDot start parts) : start ≤ t.start ∧ t.stop ≤ start + width parts := by
  induction parts generalizing afterDot start with
  | nil => contradiction
  | cons part parts ih =>
    rw [tokensOf] at h
    rw [width_cons]
    cases htag : part.tag? afterDot with
    | none =>
      rw [htag] at h
      have := ih h
      omega
    | some tag =>
      rw [htag] at h
      rcases List.mem_cons.mp h with rfl | h
      · exact ⟨Nat.le_refl _, by simp only [Token.stop]; omega⟩
      · have := ih h
        omega

/-- **Order.** Each token stops before the later ones start. -/
theorem tokensOf_ascending (afterDot : Bool) (start : Nat) (parts : List Part) :
    (tokensOf afterDot start parts).Pairwise fun t u => t.stop ≤ u.start := by
  induction parts generalizing afterDot start with
  | nil => exact .nil
  | cons part parts ih =>
    rw [tokensOf]
    cases part.tag? afterDot with
    | none => exact ih _ _
    | some tag =>
      refine List.pairwise_cons.mpr ⟨fun u hu => ?_, ih _ _⟩
      exact (tokensOf_within hu).1

/-- Of a row that ascends, one token at most holds a character. -/
theorem filter_covers_eq_singleton {tokens : List Token}
    (ascending : tokens.Pairwise fun t u => t.stop ≤ u.start) {t : Token} (ht : t ∈ tokens)
    {i : Nat} (hi : t.span.covers i = true) : tokens.filter (fun u => u.span.covers i) = [t] := by
  have place := Token.covers_iff.mp hi
  apply filter_eq_singleton ascending ht hi
  · intro u hu
    rw [Token.covers_iff]
    omega
  · intro u hu
    rw [Token.covers_iff]
    omega

/-- The tokens of a text whose scan goes through stand in a row within the text. -/
theorem scan_tokens {text : String} (h : (scan text).error = none) :
    ((scan text).tokens.Pairwise fun t u => t.stop ≤ u.start) ∧
      ∀ t ∈ (scan text).tokens, t.stop ≤ text.length := by
  obtain ⟨parts, row⟩ := exists_decomposition h
  have tokens : (scan text).tokens = tokensOf false 0 parts := by
    rw [scan, row.scanFrom_eq]
  rw [tokens]
  refine ⟨tokensOf_ascending false 0 parts, fun t ht => ?_⟩
  have inside := (tokensOf_within ht).2
  rw [row.width_eq, Nat.zero_add, String.length_toList] at inside
  exact inside

/-! ### Spaces and comments -/

/-- The character at position `i` belongs to a space or a comment of the text. -/
def Blank (text : List Char) (i : Nat) : Prop :=
  ∃ before part after, Decomposition text (before ++ part :: after) ∧
    (part.kind = .space ∨ part.kind = .comment) ∧
      width before ≤ i ∧ i < width before + part.text.length

/-- **Blanks.** No token holds a character of a space or a comment. -/
theorem Blank.not_covers {text : String} {i : Nat} (h : Blank text.toList i) {t : Token}
    (ht : t ∈ (scan text).tokens) : ¬ t.span.covers i = true := by
  obtain ⟨before, part, after, row, kind, low, high⟩ := h
  rw [scan, row.scanFrom_eq] at ht
  -- Each token stands in front of the piece or behind it.
  obtain ⟨afterDot, split⟩ := tokensOf_append false 0 before (part :: after)
  have untagged : part.tag? afterDot = none := by
    unfold Part.tag?
    rcases kind with kind | kind <;> rw [kind]
  rw [split, tokensOf, untagged, Nat.zero_add] at ht
  rw [Token.covers_iff]
  rcases List.mem_append.mp ht with ht | ht
  · have := tokensOf_within ht
    omega
  · have := tokensOf_within ht
    omega

/-- Each character of a row belongs to one of its pieces. -/
theorem exists_part {parts : List Part} {i : Nat} (h : i < width parts) :
    ∃ before part after, parts = before ++ part :: after ∧ width before ≤ i ∧
      i < width before + part.text.length := by
  induction parts generalizing i with
  | nil => exact absurd h (Nat.not_lt_zero i)
  | cons part parts ih =>
    rw [width_cons] at h
    by_cases first : i < part.text.length
    · exact ⟨[], part, parts, rfl, Nat.zero_le i, by rw [width_nil]; omega⟩
    · obtain ⟨before, part', after, rfl, low, high⟩ := ih (i := i - part.text.length) (by omega)
      refine ⟨part :: before, part', after, rfl, ?_, ?_⟩
      · rw [width_cons]
        omega
      · rw [width_cons]
        omega

/-- A piece without a class is a space or a comment. -/
theorem Part.blank_of_tag? {afterDot : Bool} {part : Part} (h : part.tag? afterDot = none) :
    part.kind = .space ∨ part.kind = .comment := by
  obtain ⟨kind, text⟩ := part
  cases kind <;> simp_all [Part.tag?]

/-- **Tokens and blanks.** Each character of a text whose scan goes through belongs to a space or a
    comment, or to a token. -/
theorem blank_or_covers {text : String} (h : (scan text).error = none) {i : Nat}
    (hi : i < text.toList.length) :
    Blank text.toList i ∨ ∃ t ∈ (scan text).tokens, t.span.covers i = true := by
  obtain ⟨parts, row⟩ := exists_decomposition h
  rw [← row.width_eq] at hi
  obtain ⟨before, part, after, rfl, low, high⟩ := exists_part hi
  obtain ⟨afterDot, split⟩ := tokensOf_append false 0 before (part :: after)
  rw [tokensOf, Nat.zero_add] at split
  cases htag : part.tag? afterDot with
  | none => exact .inl ⟨before, part, after, row, Part.blank_of_tag? htag, low, high⟩
  | some tag =>
    refine .inr ⟨⟨tag, part.text, width before⟩, ?_, Token.covers_iff.mpr ⟨low, high⟩⟩
    rw [scan, row.scanFrom_eq, split, htag]
    exact List.mem_append_right _ List.mem_cons_self

end LyqlHighlight.Lexical
