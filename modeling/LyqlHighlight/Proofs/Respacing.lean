import LyqlHighlight.Proofs.Separation

namespace LyqlHighlight.Lexical

/-!
# Tokens with other spaces between them

The lexemes of a text, written down again with some white space between each two of them, are
scanned as the same tokens.  So neither comments nor the width of spaces tell on the tokens.

* `Spacing` — white space to put around lexemes;
* `Spacing.spread`, `Spacing.placed` — the text with the lexemes in it, and the tokens at their
  places there;
* `Lexeme.of_tag?` — a lexeme that is reported is one in front of every space;
* `scan_spread` — the main result.
-/

/-- White space to put around lexemes: some between any two of them. -/
structure Spacing where
  /-- What stands in front of the first lexeme. -/
  lead : List Char
  /-- What stands behind each lexeme, by its number, but not behind the last one. -/
  gap : Nat → List Char
  /-- What stands behind the last lexeme. -/
  trail : List Char
  /-- There is white space in front. -/
  lead_blank : ∀ c ∈ lead, isSpace c = true
  /-- There is white space in between. -/
  gap_blank : ∀ i, ∀ c ∈ gap i, isSpace c = true
  /-- Some of it is there. -/
  gap_ne_nil : ∀ i, gap i ≠ []
  /-- There is white space at the end. -/
  trail_blank : ∀ c ∈ trail, isSpace c = true

namespace Spacing

/-- What stands behind the lexeme of number `i`, if `tokens` are those that come later. -/
def behind (s : Spacing) (i : Nat) : List Token → List Char
  | [] => s.trail
  | _ :: _ => s.gap i

/-- The lexemes of some tokens, the first of which has number `i`, and the spaces behind them. -/
def spreadFrom (s : Spacing) (i : Nat) : List Token → List Char
  | [] => []
  | t :: tokens => t.lexeme ++ (s.behind i tokens ++ s.spreadFrom (i + 1) tokens)

/-- The text with the lexemes of the tokens in it. -/
def spread (s : Spacing) (tokens : List Token) : String :=
  String.ofList (s.lead ++ s.spreadFrom 0 tokens)

/-- Some tokens, the first of which has number `i`, at the places of their lexemes from `start`
    on. -/
def placedFrom (s : Spacing) (i start : Nat) : List Token → List Token
  | [] => []
  | t :: tokens =>
    { t with start } ::
      s.placedFrom (i + 1) (start + t.lexeme.length + (s.behind i tokens).length) tokens

/-- The tokens at the places of their lexemes in the text. -/
def placed (s : Spacing) (tokens : List Token) : List Token :=
  s.placedFrom 0 s.lead.length tokens

theorem behind_blank (s : Spacing) (i : Nat) (tokens : List Token) :
    ∀ c ∈ s.behind i tokens, isSpace c = true := by
  cases tokens with
  | nil => exact s.trail_blank
  | cons t tokens => exact s.gap_blank i

/-- Each lexeme ends where it is put: nothing follows it but white space. -/
theorem head?_behind_blank (s : Spacing) (i : Nat) (tokens : List Token) :
    ∀ c ∈ (s.behind i tokens ++ s.spreadFrom (i + 1) tokens).head?, isSpace c = true := by
  intro c hc
  cases tokens with
  | nil =>
    have hc : c ∈ s.trail.head? := by simpa [behind, spreadFrom] using hc
    exact s.trail_blank c (List.mem_of_mem_head? hc)
  | cons t tokens =>
    rw [behind, List.head?_append_of_ne_nil _ (s.gap_ne_nil i)] at hc
    exact s.gap_blank i c (List.mem_of_mem_head? hc)

end Spacing

/-- A lexeme that is reported is one in front of every space, since it is no comment. -/
theorem Lexeme.of_tag? {part : Part} {rest rest' : List Char}
    (h : Lexeme part.kind part.text rest) {afterDot : Bool} {tag : TokenTag}
    (reported : part.tag? afterDot = some tag) (blank : ∀ c ∈ rest'.head?, isSpace c = true) :
    Lexeme part.kind part.text rest' := by
  refine h.of_separates fun c hc => ⟨blank c hc, fun comment => ?_⟩
  rw [Part.tag?, comment] at reported
  cases reported

/-- The lexemes that a row of pieces reports are scanned as the same tokens if they are written down
    again with white space between them. -/
theorem Decomposition.scanFrom_spreadFrom {text : List Char} {parts : List Part}
    (h : Decomposition text parts) (s : Spacing) (afterDot : Bool) (i before start : Nat) :
    scanFrom afterDot start (s.spreadFrom i (tokensOf afterDot before parts)) =
      ⟨s.placedFrom i start (tokensOf afterDot before parts), none⟩ := by
  -- A piece that is not reported is left out; one that is comes before the same tokens as before,
  -- so that both scans know alike whether it is a dot.
  induction h generalizing afterDot i before start with
  | nil => simp [tokensOf, Spacing.spreadFrom, Spacing.placedFrom, scanFrom]
  | @cons part rest parts lexeme behind ih =>
    rw [tokensOf]
    cases reported : part.tag? afterDot with
    | none => exact ih _ _ _ _
    | some tag =>
      generalize hlater : tokensOf (part.text = ['.']) (before + part.text.length) parts = later
      have lexeme' := lexeme.of_tag? reported (s.head?_behind_blank i later)
      show scanFrom _ _ (part.text ++ (s.behind i later ++ s.spreadFrom (i + 1) later)) = _
      rw [lexeme'.scanFrom_append, reported]
      show (scanFrom _ _ (s.behind i later ++ s.spreadFrom (i + 1) later)).cons _ = _
      rw [scanFrom_spaces (s.behind_blank i later), ← hlater, ih]
      rfl

/-- **Other spaces.** The lexemes of a text that is scanned without an error, written down with any
    white space in front, any behind, and some between each two of them, are scanned without an
    error, as the same tokens in the same order, each where its lexeme was put. -/
theorem scan_spread {text : String} (accepted : (scan text).error = none) (s : Spacing) :
    scan (s.spread (scan text).tokens) = ⟨s.placed (scan text).tokens, none⟩ := by
  obtain ⟨parts, row⟩ := exists_decomposition accepted
  have tokens : (scan text).tokens = tokensOf false 0 parts := by
    rw [scan, row.scanFrom_eq]
  rw [tokens, scan, Spacing.spread, String.toList_ofList, scanFrom_spaces s.lead_blank,
    Nat.zero_add, row.scanFrom_spreadFrom]
  rfl

/-- White space of all four kinds, as much of it behind a lexeme as the number of the lexeme says,
    and a tab more. -/
def raggedSpacing : Spacing where
  lead := ['\n']
  gap i := '\t' :: List.replicate i ' '
  trail := ['\r', '\n']
  lead_blank := by simp [isSpace]
  gap_blank := by simp [List.mem_replicate, isSpace]
  gap_ne_nil := by simp
  trail_blank := by simp [isSpace]

/-- A string over two lines, a comment, and a word behind a dot: the comment goes, and the word is
    still a name. -/
theorem scan_spread_ragged :
    (scan "1.5.if//x\n<'a\n'").error = none ∧
      raggedSpacing.spread (scan "1.5.if//x\n<'a\n'").tokens = "\n1.5\t.\t if\t  <\t   'a\n'\r\n" ∧
      scan "\n1.5\t.\t if\t  <\t   'a\n'\r\n" =
        ⟨[⟨.number, ['1', '.', '5'], 1⟩, ⟨.symbol, ['.'], 5⟩, ⟨.identifier, ['i', 'f'], 8⟩,
          ⟨.symbol, ['<'], 13⟩, ⟨.string, ['\x27', 'a', '\n', '\x27'], 18⟩], none⟩ := by
  have accepted : (scan "1.5.if//x\n<'a\n'").error = none := by cbv
  have text : raggedSpacing.spread (scan "1.5.if//x\n<'a\n'").tokens =
      "\n1.5\t.\t if\t  <\t   'a\n'\r\n" := by cbv
  have tokens : raggedSpacing.placed (scan "1.5.if//x\n<'a\n'").tokens =
      [⟨.number, ['1', '.', '5'], 1⟩, ⟨.symbol, ['.'], 5⟩, ⟨.identifier, ['i', 'f'], 8⟩,
        ⟨.symbol, ['<'], 13⟩, ⟨.string, ['\x27', 'a', '\n', '\x27'], 18⟩] := by cbv
  have scanned := scan_spread accepted raggedSpacing
  rw [text, tokens] at scanned
  exact ⟨accepted, text, scanned⟩

end LyqlHighlight.Lexical
