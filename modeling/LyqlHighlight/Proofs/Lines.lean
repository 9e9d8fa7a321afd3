import LyqlHighlight.Proofs.Separation

namespace LyqlHighlight.Lexical

/-!
# Scanning line by line

The tokens of a text and of the lines behind it are those of both, each in its place.  Only a dot
tells on across the end of a line: it makes a word that follows it a name.

* `Token.shift`, `ScanError.shift`, `Scan.shift` — tokens and errors further on in a text;
* `Token.behindDot`, `Scan.behindDot` — what a dot in front makes of the first token;
* `scanFrom_shift`, `scanFrom_behindDot` — a scan depends on what is in front of its text in these
  ways only;
* `scan_line` — the main result.
-/

/-! ### Further on in a text -/

/-- A token further on in a text by `n` characters. -/
def Token.shift (n : Nat) (t : Token) : Token :=
  { t with start := t.start + n }

/-- An error further on in a text by `n` characters. -/
def ScanError.shift (n : Nat) (e : ScanError) : ScanError :=
  { e with start := e.start + n }

/-- A scan further on in a text by `n` characters. -/
def Scan.shift (n : Nat) (s : Scan) : Scan :=
  ⟨s.tokens.map (Token.shift n), s.error.map (ScanError.shift n)⟩

theorem Scan.shift_cons (n : Nat) (t : Token) (s : Scan) :
    (s.cons t).shift n = (s.shift n).cons (t.shift n) :=
  rfl

/-- Where no piece is cut off, the scan ends. -/
theorem scanFrom_of_fault {afterDot : Bool} {start : Nat} {c : Char} {cs : List Char}
    {fault : Fault} (h : firstPiece c cs = .error fault) :
    scanFrom afterDot start (c :: cs) = ⟨[], some ⟨fault, start⟩⟩ := by
  rw [scanFrom]
  split
  · next fault' broken =>
    obtain rfl := Except.error.inj (h.symm.trans broken)
    rfl
  · next p cut => rw [h] at cut; contradiction

/-- Further on in a text the same is scanned, further on. -/
theorem scanFrom_shift (afterDot : Bool) (start n : Nat) (text : List Char) :
    scanFrom afterDot (start + n) text = (scanFrom afterDot start text).shift n := by
  -- The recursion of the scan: each piece is cut off in the same way.
  fun_induction scanFrom afterDot start text with
  | case1 => simp [scanFrom, Scan.shift]
  | case2 afterDot start c cs fault broken => rw [scanFrom_of_fault broken]; rfl
  | case3 afterDot start c cs p cut blank ih =>
    rw [scanFrom_of_firstPiece cut, blank, ← ih, Nat.add_right_comm]
  | case4 afterDot start c cs p cut tag named ih =>
    rw [scanFrom_of_firstPiece cut, named, Scan.shift_cons, ← ih, Nat.add_right_comm]
    rfl

/-! ### Behind a dot -/

/-- Whether a token is a word. -/
def Token.isWord (t : Token) : Bool :=
  t.lexeme.head?.any isWordStart

/-- A token as it is behind a dot: a word is a name. -/
def Token.behindDot (t : Token) : Token :=
  if t.isWord then { t with tag := .identifier } else t

/-- A scan as it is behind a dot, which concerns the first token only. -/
def Scan.behindDot (s : Scan) : Scan :=
  { s with tokens := s.tokens.modifyHead Token.behindDot }

/-- The pieces that start like a word are the words. -/
theorem Lexeme.kind_eq_word_iff {kind : PieceKind} {text rest : List Char}
    (h : Lexeme kind text rest) : kind = .word ↔ text.head?.any isWordStart = true := by
  constructor
  · rintro rfl
    cases h with
    | word starts inside ends => simpa using starts
  · intro starts
    obtain ⟨c, cs, rfl⟩ := List.exists_cons_of_ne_nil h.ne_nil
    have cut := firstPiece_of_lexeme h (List.cons_append ..)
    rw [firstPiece_of_isWordStart _ (by simpa using starts)] at cut
    exact (Piece.mk.inj (Except.ok.inj cut)).1.symm

/-- Behind a dot a piece is reported as before, but a word as a name. -/
theorem tokenTag?_true {p : Piece} (lexeme : Lexeme p.kind p.text p.rest) (afterDot : Bool)
    (start : Nat) :
    (tokenTag? true p).map (⟨·, p.text, start⟩) =
      (tokenTag? afterDot p).map fun tag => Token.behindDot ⟨tag, p.text, start⟩ := by
  obtain ⟨kind, text, rest⟩ := p
  have word := lexeme.kind_eq_word_iff
  unfold Token.behindDot Token.isWord
  cases kind <;> simp_all [tokenTag?, wordTag]

/-- A scan behind a dot reports the same, but a word in front as a name. -/
theorem scanFrom_behindDot (afterDot : Bool) (start : Nat) (text : List Char) :
    scanFrom true start text = (scanFrom afterDot start text).behindDot := by
  -- The dot is known up to the first token only, so behind that both scans are the same.
  fun_induction scanFrom afterDot start text with
  | case1 => simp [scanFrom, Scan.behindDot]
  | case2 afterDot start c cs fault broken => rw [scanFrom_of_fault broken]; rfl
  | case3 afterDot start c cs p cut blank ih =>
    have first := tokenTag?_true (lexeme_of_firstPiece cut) afterDot start
    rw [blank, Option.map_none, Option.map_eq_none_iff] at first
    rw [scanFrom_of_firstPiece cut, first, ih]
  | case4 afterDot start c cs p cut tag named ih =>
    have first := tokenTag?_true (lexeme_of_firstPiece cut) afterDot start
    rw [named, Option.map_some, Option.map_eq_some_iff] at first
    obtain ⟨tag', named', same⟩ := first
    rw [scanFrom_of_firstPiece cut, named']
    show Scan.cons _ _ = Scan.cons _ _
    rw [same]

/-! ### Lines -/

/-- **Line by line.** The tokens of a text that is scanned without an error are reported unchanged
    if further lines follow.  Behind them comes the scan of these lines, further on by the text and
    the end of its last line, with all its tokens and its error.  Only if the last token of the text
    is a dot and the first one behind it is a word, that word is a name. -/
theorem scan_line {text : String} (accepted : (scan text).error = none) (line : String) :
    scan (text ++ "\n" ++ line) =
      ((if dotBehind false (scan text).tokens then (scan line).behindDot else scan line).shift
        (text.length + 1)).behind (scan text).tokens := by
  obtain ⟨parts, row⟩ := exists_decomposition accepted
  have tokens : (scan text).tokens = tokensOf false 0 parts := by
    rw [scan, row.scanFrom_eq]
  have whole : (text ++ "\n" ++ line).toList = text.toList ++ '\n' :: line.toList := by
    simp
  rw [tokens, scan, whole, row.scanFrom_line, Nat.add_assoc, scanFrom_shift,
    String.length_toList]
  split
  · next dot => rw [dot, scanFrom_behindDot false, scan]
  · next other => rw [Bool.eq_false_iff.mpr other, scan]

/-- A comment with a quote stays on its line, and the dot in front of it tells on the next word. -/
theorem scan_line_dot :
    (scan "a. // it's").error = none ∧
      scan ("a. // it's" ++ "\n" ++ "if+\x27") =
        ⟨[⟨.identifier, ['a'], 0⟩, ⟨.symbol, ['.'], 1⟩, ⟨.identifier, ['i', 'f'], 11⟩,
          ⟨.symbol, ['+'], 13⟩], some ⟨.unterminated 1, 14⟩⟩ := by
  have accepted : (scan "a. // it's").error = none := by cbv
  refine ⟨accepted, ?_⟩
  rw [scan_line accepted]
  cbv

end LyqlHighlight.Lexical
