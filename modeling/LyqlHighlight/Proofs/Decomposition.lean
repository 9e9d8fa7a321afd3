import Mathlib
import LyqlHighlight.Lexical.Scan
import LyqlHighlight.Proofs.Grammar

namespace LyqlHighlight.Lexical

/-!
# Texts as rows of pieces

A scan goes through if and only if its text is a row of pieces of the grammar, which is then the
only one, and reports the pieces that are no space and no comment.

* `Part`, `Decomposition` — a text as a row of pieces, each of the grammar in front of the next;
* `Decomposition.unique` — no text is one in two ways;
* `tokensOf` — what a row of pieces has to report;
* `scan_decomposition` — a scan finds the row and reports that.
-/

/-- A piece without its surroundings. -/
structure Part where
  /-- The kind of the piece. -/
  kind : PieceKind
  /-- The characters of the piece. -/
  text : List Char
deriving DecidableEq, Repr

/-- The text is the row of these pieces, each of which belongs to the grammar where it stands. -/
inductive Decomposition : List Char → List Part → Prop
  /-- The empty text. -/
  | nil : Decomposition [] []
  /-- A piece, and the pieces of what follows it. -/
  | cons {part : Part} {rest : List Char} {parts : List Part}
      (lexeme : Lexeme part.kind part.text rest) (behind : Decomposition rest parts) :
      Decomposition (part.text ++ rest) (part :: parts)

/-- The pieces of a row that starts with a piece that is cut off. -/
theorem Decomposition.of_firstPiece {c : Char} {cs : List Char} {p : Piece} {parts : List Part}
    (h : firstPiece c cs = .ok p) (behind : Decomposition p.rest parts) :
    Decomposition (c :: cs) (⟨p.kind, p.text⟩ :: parts) := by
  obtain ⟨whole, lexeme⟩ := firstPiece_eq_ok_iff.mp h
  rw [← whole]
  exact @Decomposition.cons ⟨p.kind, p.text⟩ _ _ lexeme behind

/-- A row of pieces starts with the piece that is cut off. -/
theorem Decomposition.firstPiece_eq {c : Char} {cs : List Char} {parts : List Part}
    (h : Decomposition (c :: cs) parts) : ∃ part rest behind, parts = part :: behind ∧
      firstPiece c cs = .ok ⟨part.kind, part.text, rest⟩ ∧ Decomposition rest behind := by
  generalize whole : c :: cs = text at h
  cases h with
  | nil => contradiction
  | cons lexeme behind =>
    exact ⟨_, _, _, rfl, firstPiece_eq_ok_iff.mpr ⟨whole.symm, lexeme⟩, behind⟩

/-- No text is a row of pieces in two ways. -/
theorem Decomposition.unique {text : List Char} {parts : List Part}
    (h : Decomposition text parts) {others : List Part} (h' : Decomposition text others) :
    others = parts := by
  induction h generalizing others with
  | nil =>
    -- A piece is not empty, so the empty text has none.
    generalize empty : ([] : List Char) = text at h'
    cases h' with
    | nil => rfl
    | cons lexeme => exact absurd (List.append_eq_nil_iff.mp empty.symm).1 lexeme.ne_nil
  | @cons part rest parts lexeme behind ih =>
    obtain ⟨c, cs, whole⟩ := List.exists_cons_of_ne_nil
      (fun empty => lexeme.ne_nil (List.append_eq_nil_iff.mp empty).1 : part.text ++ rest ≠ [])
    rw [whole] at h'
    obtain ⟨part', rest', others', rfl, cut', behind'⟩ := h'.firstPiece_eq
    -- Both rows start with the piece that is cut off, and there is only one.
    have cut : firstPiece c cs = .ok ⟨part.kind, part.text, rest⟩ :=
      firstPiece_eq_ok_iff.mpr ⟨whole, lexeme⟩
    obtain ⟨kind, text, rfl⟩ := Piece.mk.inj (Except.ok.inj (cut'.symm.trans cut))
    rw [ih behind', show part' = part from congrArg₂ Part.mk kind text]

/-- The pieces of a row make up its text. -/
theorem Decomposition.flatMap_text {text : List Char} {parts : List Part}
    (h : Decomposition text parts) : parts.flatMap Part.text = text := by
  induction h with
  | nil => rfl
  | cons lexeme behind ih => rw [List.flatMap_cons, ih]

/-! ### Tokens -/

/-- The class under which a piece is reported, unless it is a space or a comment. -/
def Part.tag? (afterDot : Bool) (part : Part) : Option TokenTag :=
  match part.kind with
  | .space | .comment => none
  | .string => some .string
  | .number => some .number
  | .word => some (wordTag afterDot part.text)
  | .symbol => some .symbol

/-- The tokens of a row of pieces from position `start` on, where `afterDot` says whether the last
    token in front of it is a dot: each piece at its place that is no space and no comment. -/
def tokensOf (afterDot : Bool) (start : Nat) : List Part → List Token
  | [] => []
  | part :: parts =>
    match part.tag? afterDot with
    | none => tokensOf afterDot (start + part.text.length) parts
    | some tag =>
      ⟨tag, part.text, start⟩ ::
        tokensOf (part.text = ['.']) (start + part.text.length) parts

theorem tokenTag?_eq (afterDot : Bool) (p : Piece) :
    tokenTag? afterDot p = Part.tag? afterDot ⟨p.kind, p.text⟩ :=
  rfl

/-- Where a piece is cut off, the scan goes on behind it. -/
theorem scanFrom_of_firstPiece {afterDot : Bool} {start : Nat} {c : Char} {cs : List Char}
    {p : Piece} (h : firstPiece c cs = .ok p) :
    scanFrom afterDot start (c :: cs) =
      match tokenTag? afterDot p with
      | none => scanFrom afterDot (start + p.text.length) p.rest
      | some tag =>
        (scanFrom (p.text = ['.']) (start + p.text.length) p.rest).cons ⟨tag, p.text, start⟩ := by
  rw [scanFrom]
  split
  · next fault broken => rw [h] at broken; contradiction
  · next p' cut =>
    obtain rfl := Except.ok.inj (h.symm.trans cut)
    rfl

/-- The scan of a piece of the grammar goes on behind it. -/
theorem Lexeme.scanFrom_append {part : Part} {rest : List Char}
    (h : Lexeme part.kind part.text rest) (afterDot : Bool) (start : Nat) :
    scanFrom afterDot start (part.text ++ rest) =
      match part.tag? afterDot with
      | none => scanFrom afterDot (start + part.text.length) rest
      | some tag =>
        (scanFrom (part.text = ['.']) (start + part.text.length) rest).cons
          ⟨tag, part.text, start⟩ := by
  obtain ⟨c, cs, whole⟩ := List.exists_cons_of_ne_nil
    (fun empty => h.ne_nil (List.append_eq_nil_iff.mp empty).1 : part.text ++ rest ≠ [])
  rw [whole, scanFrom_of_firstPiece (firstPiece_of_lexeme h whole), tokenTag?_eq]

/-- The scan of a row of pieces goes through and reports its tokens. -/
theorem Decomposition.scanFrom_eq {text : List Char} {parts : List Part}
    (h : Decomposition text parts) (afterDot : Bool) (start : Nat) :
    scanFrom afterDot start text = ⟨tokensOf afterDot start parts, none⟩ := by
  induction h generalizing afterDot start with
  | nil => simp [scanFrom, tokensOf]
  | @cons part rest parts lexeme behind ih =>
    rw [lexeme.scanFrom_append, tokensOf]
    cases part.tag? afterDot with
    | none => exact ih _ _
    | some tag =>
      show (scanFrom _ _ rest).cons _ = _
      rw [ih]
      rfl

/-- A text whose scan goes through is a row of pieces. -/
theorem exists_decomposition {afterDot : Bool} {start : Nat} {text : List Char}
    (h : (scanFrom afterDot start text).error = none) : ∃ parts, Decomposition text parts := by
  -- The recursion of the scan: each piece that is cut off is the first of a row.
  fun_induction scanFrom afterDot start text with
  | case1 => exact ⟨[], .nil⟩
  | case2 => contradiction
  | case3 afterDot start c cs p cut blank ih =>
    obtain ⟨parts, behind⟩ := ih h
    exact ⟨_, .of_firstPiece cut behind⟩
  | case4 afterDot start c cs p cut tag reported ih =>
    obtain ⟨parts, behind⟩ := ih h
    exact ⟨_, .of_firstPiece cut behind⟩

/-- The scan of a text goes through exactly if the text is a row of pieces of the grammar.  There is
    only one such row then, and the tokens are its own. -/
theorem scan_decomposition (text : String) :
    ((scan text).error = none ↔ ∃ parts, Decomposition text.toList parts) ∧
      ∀ parts, Decomposition text.toList parts →
        (∀ others, Decomposition text.toList others → others = parts) ∧
          (scan text).tokens = tokensOf false 0 parts := by
  refine ⟨⟨exists_decomposition, ?_⟩, ?_⟩
  · rintro ⟨parts, h⟩
    rw [scan, h.scanFrom_eq]
  · intro parts h
    refine ⟨fun others h' => h.unique h', ?_⟩
    rw [scan, h.scanFrom_eq]

/-- A name behind a dot, numbers that break off where the next one starts, and a comment. -/
theorem scan_decomposition_tight :
    ∃ parts, Decomposition "a.if 1.5.5e-3==//!=".toList parts ∧
      (tokensOf false 0 parts).map (fun t => (t.tag, String.ofList t.lexeme, t.start)) =
        [(.identifier, "a", 0), (.symbol, ".", 1), (.identifier, "if", 2), (.number, "1.5", 5),
          (.symbol, ".", 8), (.number, "5e-3", 9), (.symbol, "==", 13)] := by
  obtain ⟨parts, h⟩ := (scan_decomposition "a.if 1.5.5e-3==//!=").1.mp (by cbv)
  have tokens := ((scan_decomposition _).2 parts h).2
  refine ⟨parts, h, ?_⟩
  rw [← tokens]
  cbv

end LyqlHighlight.Lexical
