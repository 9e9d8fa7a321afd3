import LyqlHighlight.Proofs.Decomposition

namespace LyqlHighlight.Lexical

/-!
# What separates two pieces

A piece asks of the text behind it only that it does not go on in certain ways.  So it stays the
same in front of any text that goes on as before, or with a space; a comment takes in all spaces but
the end of its line.

* `Separates` — a text that no piece of some kind could go on with;
* `Lexeme.in_front` — a piece in front of another text;
* `scanFrom_spaces` — a scan passes over spaces;
* `Decomposition.scanFrom_line` — a row of pieces in front of the next line is scanned as before,
  and then the line.
-/

/-! ### Pieces in front of another text -/

/-- The text starts with nothing that a piece of this kind could go on with: it is empty or starts
    with a space, which behind a comment is the end of the line. -/
def Separates (kind : PieceKind) (rest : List Char) : Prop :=
  ∀ c ∈ rest.head?, isSpace c = true ∧ (kind = .comment → c = '\n')

/-- The end of a line separates pieces of every kind from the next line. -/
theorem separates_newline (kind : PieceKind) (line : List Char) : Separates kind ('\n' :: line) := by
  simp [Separates, isSpace]

/-- Spaces belong to none of the classes that a piece could go on with. -/
theorem classes_of_isSpace {c : Char} (h : isSpace c = true) :
    c.isDigit = false ∧ isExponentMark c = false ∧ isWordChar c = false ∧ c ≠ '.' ∧ c ≠ '/' ∧
      ∀ d, partner? d ≠ some c := by
  have hc := space_eq h
  have partners : ∀ d, partner? d ≠ some c := by
    intro d
    unfold partner?
    split <;> rcases hc with rfl | rfl | rfl | rfl <;> decide
  rcases hc with rfl | rfl | rfl | rfl <;> exact ⟨rfl, rfl, rfl, by decide, by decide, partners⟩

variable {rest rest' : List Char}

/-- A class that holds no space is not gone on with where the text goes on as before or with a
    space. -/
theorem Stops.in_front {p : Char → Bool} (h : Stops p rest)
    (bare : ∀ c, isSpace c = true → p c = false)
    (head : ∀ c ∈ rest'.head?, c ∈ rest.head? ∨ isSpace c = true) : Stops p rest' := by
  intro c hc
  rcases head c hc with same | space
  · exact h c same
  · exact bare c space

/-- A number stays one in front of a text that goes on as before or with a space. -/
theorem Numeral.in_front {lexeme : List Char} (h : Numeral lexeme rest)
    (head : ∀ c ∈ rest'.head?, c ∈ rest.head? ∨ isSpace c = true)
    (opens : OpensFraction rest' → OpensFraction rest) : Numeral lexeme rest' := by
  cases h with
  | mk digits pointed marked noDigit noExponent noFraction =>
    have noDigit' := noDigit.in_front (fun c space => (classes_of_isSpace space).1) head
    have noExponent' := fun none =>
      (noExponent none).in_front (fun c space => (classes_of_isSpace space).2.1) head
    exact .mk digits pointed marked noDigit' noExponent'
      fun noPoint none opens' => noFraction noPoint none (opens opens')

/-- **Pieces in front of another text.** A piece stays one in front of a text that goes on as before
    or with a space, and with no fraction that was not there. -/
theorem Lexeme.in_front {kind : PieceKind} {text : List Char} (h : Lexeme kind text rest)
    (head : ∀ c ∈ rest'.head?, c ∈ rest.head? ∨ (isSpace c = true ∧ (kind = .comment → c = '\n')))
    (opens : OpensFraction rest' → OpensFraction rest) : Lexeme kind text rest' := by
  have spaces : ∀ c ∈ rest'.head?, c ∈ rest.head? ∨ isSpace c = true :=
    fun c hc => (head c hc).imp_right And.left
  -- The head of the new text is one of the old text, which was allowed, or a space, which is.
  have allowed {p : Char → Prop} (old : ∀ c ∈ rest.head?, p c) (new : ∀ c, isSpace c = true → p c) :
      ∀ c ∈ rest'.head?, p c :=
    fun c hc => (spaces c hc).elim (old c) (new c)
  cases h with
  | space h => exact .space h
  | comment line ends =>
    refine .comment line fun c hc => ?_
    rcases head c hc with same | parted
    · exact ends c same
    · exact parted.2 rfl
  | string quote inside => exact .string quote inside
  | number h => exact .number (h.in_front spaces opens)
  | word starts inside ends =>
    exact .word starts inside
      (ends.in_front (fun c space => (classes_of_isSpace space).2.2.1) spaces)
  | pair h => exact .pair h
  | @lone c _ alone unpaired =>
    refine .lone alone fun paired => ?_
    obtain ⟨d, hd⟩ := exists_partner_of_standsAlone alone
    rw [hd] at paired unpaired
    have other := allowed (p := (· ≠ d)) (fun e he same => unpaired (same ▸ he))
      (fun e space same => (classes_of_isSpace space).2.2.2.2.2 c (same ▸ hd))
    exact other d paired rfl
  | slash single =>
    refine .slash fun second => ?_
    have other := allowed (p := (· ≠ '/')) (fun e he same => single (same ▸ he))
      (fun e space => (classes_of_isSpace space).2.2.2.2.1)
    exact other '/' second rfl
  | punctuation h => exact .punctuation h

/-- A piece stays one in front of each text that separates it from what comes later. -/
theorem Lexeme.of_separates {kind : PieceKind} {text : List Char} (h : Lexeme kind text rest)
    (separates : Separates kind rest') : Lexeme kind text rest' := by
  refine h.in_front (fun c hc => .inr (separates c hc)) ?_
  rintro ⟨d, cs, rfl, -⟩
  exact absurd rfl (classes_of_isSpace (separates '.' rfl).1).2.2.2.1

/-- A piece stays one if a further line follows the text behind it. -/
theorem Lexeme.before_line {kind : PieceKind} {text : List Char} (h : Lexeme kind text rest)
    (line : List Char) : Lexeme kind text (rest ++ '\n' :: line) := by
  refine h.in_front (fun c hc => ?_) ?_
  · cases rest with
    | nil => exact .inr (separates_newline kind line c hc)
    | cons d ds => exact .inl hc
  · -- A fraction opens with two characters, neither of which is the end of a line.
    rintro ⟨d, cs, whole, digit⟩
    rcases rest with _ | ⟨point, _ | ⟨e, es⟩⟩
    · exact absurd (List.cons.inj whole).1 (by decide)
    · obtain ⟨rfl, -⟩ := List.cons.inj (List.cons.inj whole).2
      exact absurd digit (by decide)
    · obtain ⟨rfl, behind⟩ := List.cons.inj whole
      obtain ⟨rfl, -⟩ := List.cons.inj behind
      exact ⟨e, es, rfl, digit⟩

/-! ### Scans over spaces and lines -/

/-- A scan passes over spaces. -/
theorem scanFrom_spaces {spaces : List Char} (blank : ∀ c ∈ spaces, isSpace c = true)
    (afterDot : Bool) (start : Nat) (text : List Char) :
    scanFrom afterDot start (spaces ++ text) =
      scanFrom afterDot (start + spaces.length) text := by
  induction spaces generalizing start with
  | nil => rfl
  | cons c cs ih =>
    rw [List.forall_mem_cons] at blank
    rw [List.cons_append, scanFrom_of_firstPiece (firstPiece_of_isSpace _ blank.1)]
    show scanFrom afterDot (start + 1) (cs ++ text) = _
    rw [ih blank.2, List.length_cons, Nat.add_assoc, Nat.add_comm 1]

/-- A scan behind some tokens. -/
def Scan.behind (tokens : List Token) (s : Scan) : Scan :=
  { s with tokens := tokens ++ s.tokens }

theorem Scan.behind_cons (t : Token) (tokens : List Token) (s : Scan) :
    s.behind (t :: tokens) = (s.behind tokens).cons t :=
  rfl

/-- Whether the last of some tokens is a dot, or if there are none, of those in front of them. -/
def dotBehind (afterDot : Bool) (tokens : List Token) : Bool :=
  (tokens.getLast?.map fun t => decide (t.lexeme = ['.'])).getD afterDot

@[simp] theorem dotBehind_cons (afterDot : Bool) (t : Token) (tokens : List Token) :
    dotBehind afterDot (t :: tokens) = dotBehind (t.lexeme = ['.']) tokens := by
  unfold dotBehind
  rw [List.getLast?_cons]
  cases tokens.getLast? <;> rfl

/-- A row of pieces in front of a further line is scanned as before, and then the line, with no
    more known of the row than whether its last token is a dot. -/
theorem Decomposition.scanFrom_line {front : List Char} {parts : List Part}
    (h : Decomposition front parts) (line : List Char) (afterDot : Bool) (start : Nat) :
    scanFrom afterDot start (front ++ '\n' :: line) =
      (scanFrom (dotBehind afterDot (tokensOf afterDot start parts)) (start + front.length + 1)
        line).behind (tokensOf afterDot start parts) := by
  induction h generalizing afterDot start with
  | nil =>
    have newline : ∀ c ∈ ['\n'], isSpace c = true := by simp [isSpace]
    exact scanFrom_spaces newline afterDot start line
  | @cons part rest parts lexeme behind ih =>
    rw [List.append_assoc, (lexeme.before_line line).scanFrom_append, tokensOf,
      List.length_append, ← Nat.add_assoc]
    cases part.tag? afterDot with
    | none => exact ih _ _
    | some tag =>
      show (scanFrom _ _ (rest ++ '\n' :: line)).cons _ = _
      rw [ih, Scan.behind_cons, dotBehind_cons]

end LyqlHighlight.Lexical
