import LyqlHighlight.Lexical.Alphabet

namespace LyqlHighlight.Lexical

/-!
# The first piece of a text

A text of LyQL is a row of pieces, each as long as it can be: spaces, comments, strings, numbers,
words and symbols.

* `Piece` — a piece, and what follows it;
* `Fault` — why a text starts with no piece;
* `firstPiece` — the piece that a text starts with;
* `text_append_rest`, `length_rest_lt` — the piece and the rest make up the text, and the rest is
  shorter.
-/

/-- The kinds of pieces. -/
inductive PieceKind where
  /-- One character of white space. -/
  | space
  /-- A comment up to the end of its line. -/
  | comment
  /-- A string with its quotes. -/
  | string
  /-- A number. -/
  | number
  /-- A word. -/
  | word
  /-- A symbol of one or two characters. -/
  | symbol
deriving DecidableEq, Repr

/-- The first piece of a text, and the text behind it. -/
structure Piece where
  /-- The kind of the piece. -/
  kind : PieceKind
  /-- The characters of the piece. -/
  text : List Char
  /-- The characters behind it. -/
  rest : List Char
deriving DecidableEq, Repr

/-- Why no piece starts here. -/
inductive Fault where
  /-- No piece starts with this character. -/
  | unexpected (c : Char)
  /-- The string that starts here takes the remaining `length` characters and is not closed. -/
  | unterminated (length : Nat)
  /-- The number that starts here breaks off after `length` characters, inside its exponent. -/
  | malformed (length : Nat)
deriving DecidableEq, Repr

/-- The number of characters that the fault concerns. -/
def Fault.length : Fault → Nat
  | unexpected _ => 1
  | unterminated length => length
  | malformed length => length

/-! ### Numbers -/

/-- Splits a text behind the digits that it starts with. -/
def splitDigits (text : List Char) : List Char × List Char :=
  (text.takeWhile Char.isDigit, text.dropWhile Char.isDigit)

/-- Splits a text behind a point with digits. -/
def splitFraction : List Char → List Char × List Char
  | '.' :: d :: cs =>
    if d.isDigit then ('.' :: (splitDigits (d :: cs)).1, (splitDigits (d :: cs)).2)
    else ([], '.' :: d :: cs)
  | cs => ([], cs)

/-- Splits a text behind a plus or a minus. -/
def splitSign : List Char → List Char × List Char
  | '+' :: cs => (['+'], cs)
  | '-' :: cs => (['-'], cs)
  | cs => ([], cs)

/-- Splits a text behind an exponent, whose digits may not be missing; the fault is the length of
    what stands without them. -/
def splitExponent : List Char → Except Nat (List Char × List Char)
  | [] => .ok ([], [])
  | c :: cs =>
    if c = 'e' ∨ c = 'E' then
      let (sign, digits) := splitSign cs
      if (splitDigits digits).1 = [] then .error (1 + sign.length)
      else .ok (c :: sign ++ (splitDigits digits).1, (splitDigits digits).2)
    else .ok ([], c :: cs)

/-- The number that a text starts with. -/
def firstNumber (text : List Char) : Except Fault Piece :=
  let (whole, behindWhole) := splitDigits text
  let (fraction, behindFraction) := splitFraction behindWhole
  match splitExponent behindFraction with
  | .ok (exponent, rest) => .ok ⟨.number, whole ++ fraction ++ exponent, rest⟩
  | .error length => .error (.malformed (whole.length + fraction.length + length))

/-! ### The first piece -/

/-- The string that starts with the quote `q` in front of `cs`. -/
def firstString (q : Char) (cs : List Char) : Except Fault Piece :=
  match cs.dropWhile (· != q) with
  | [] => .error (.unterminated (cs.length + 1))
  | close :: rest => .ok ⟨.string, q :: cs.takeWhile (· != q) ++ [close], rest⟩

/-- The comment or the symbol that starts with a slash in front of `cs`. -/
def firstSlash (cs : List Char) : Piece :=
  if cs.head? = some '/' then
    ⟨.comment, '/' :: cs.takeWhile (· != '\n'), cs.dropWhile (· != '\n')⟩
  else ⟨.symbol, ['/'], cs⟩

/-- The symbol that starts with `c` in front of `cs`, where `partner` would make it one of two
    characters. -/
def firstPaired (c partner : Char) : List Char → Except Fault Piece
  | [] => if standsAlone c then .ok ⟨.symbol, [c], []⟩ else .error (.unexpected c)
  | d :: cs =>
    if d = partner then .ok ⟨.symbol, [c, d], cs⟩
    else if standsAlone c then .ok ⟨.symbol, [c], d :: cs⟩
    else .error (.unexpected c)

/-- The piece that the text `c :: cs` starts with. -/
def firstPiece (c : Char) (cs : List Char) : Except Fault Piece :=
  if isSpace c then .ok ⟨.space, [c], cs⟩
  else if isQuote c then firstString c cs
  else if c.isDigit then firstNumber (c :: cs)
  else if isWordStart c then
    .ok ⟨.word, c :: cs.takeWhile isWordChar, cs.dropWhile isWordChar⟩
  else if c = '/' then .ok (firstSlash cs)
  else match partner? c with
    | some partner => firstPaired c partner cs
    | none => if isPunctuation c then .ok ⟨.symbol, [c], cs⟩ else .error (.unexpected c)

/-! ### A piece and its rest make up the text -/

theorem splitDigits_append (text : List Char) :
    (splitDigits text).1 ++ (splitDigits text).2 = text := by
  simp [splitDigits]

theorem splitFraction_append (text : List Char) :
    (splitFraction text).1 ++ (splitFraction text).2 = text := by
  fun_cases splitFraction text with
  | case1 d cs hd => simp [splitDigits_append]
  | case2 d cs hd => simp
  | case3 cs h => simp

theorem splitSign_append (text : List Char) :
    (splitSign text).1 ++ (splitSign text).2 = text := by
  fun_cases splitSign text <;> simp

theorem splitExponent_append {text exponent rest : List Char}
    (h : splitExponent text = .ok (exponent, rest)) : exponent ++ rest = text := by
  fun_cases splitExponent text with
  | case1 => simp_all [splitExponent]
  | case2 c cs hc sign digits hsign hnone => simp [splitExponent, hc, hsign, hnone] at h
  | case3 c cs hc sign digits hsign hsome =>
    have whole : sign ++ digits = cs := by simpa [hsign] using splitSign_append cs
    simp only [splitExponent, hc, hsign, hsome, if_true, if_false, Except.ok.injEq,
      Prod.mk.injEq] at h
    obtain ⟨rfl, rfl⟩ := h
    rw [List.append_assoc, splitDigits_append, List.cons_append, whole]
  | case4 c cs hc => simp_all [splitExponent]

private theorem firstNumber_append {text : List Char} {p : Piece}
    (h : firstNumber text = .ok p) : p.text ++ p.rest = text := by
  simp only [firstNumber] at h
  split at h
  · rename_i exponent rest hexp
    cases h
    simp only [List.append_assoc, splitExponent_append hexp, splitFraction_append,
      splitDigits_append]
  · contradiction

theorem firstString_append {q : Char} {cs : List Char} {p : Piece}
    (h : firstString q cs = .ok p) : p.text ++ p.rest = q :: cs := by
  simp only [firstString] at h
  split at h
  · contradiction
  · rename_i close rest hclose
    cases h
    simp only [List.cons_append, List.append_assoc, List.nil_append, ← hclose,
      List.takeWhile_append_dropWhile]

private theorem firstPaired_append {c partner : Char} {cs : List Char} {p : Piece}
    (h : firstPaired c partner cs = .ok p) : p.text ++ p.rest = c :: cs := by
  fun_cases firstPaired c partner cs <;> simp_all [firstPaired] <;> subst h <;> rfl

/-- A piece and its rest make up the text. -/
theorem text_append_rest {c : Char} {cs : List Char} {p : Piece}
    (h : firstPiece c cs = .ok p) : p.text ++ p.rest = c :: cs := by
  simp only [firstPiece] at h
  split at h
  · cases h; rfl
  split at h
  · exact firstString_append h
  split at h
  · exact firstNumber_append h
  split at h
  · cases h; simp
  split at h
  · next hslash =>
    cases h
    simp only [firstSlash]
    split <;> simp [hslash]
  split at h
  · exact firstPaired_append h
  · split at h
    · cases h; rfl
    · contradiction

/-- A piece is not empty. -/
theorem text_ne_nil {c : Char} {cs : List Char} {p : Piece}
    (h : firstPiece c cs = .ok p) : p.text ≠ [] := by
  simp only [firstPiece] at h
  split at h
  · cases h; simp
  split at h
  · simp only [firstString] at h
    split at h
    · contradiction
    · cases h; simp
  split at h
  · next hdigit =>
    simp only [firstNumber] at h
    split at h
    · cases h; simp [splitDigits, hdigit]
    · contradiction
  split at h
  · cases h; simp
  split at h
  · cases h
    simp only [firstSlash]
    split <;> simp
  split at h
  · rename_i partner _
    fun_cases firstPaired c partner cs <;> simp_all [firstPaired] <;> subst h <;> simp
  · split at h
    · cases h; simp
    · contradiction

/-- What follows a piece is shorter than the text. -/
theorem length_rest_lt {c : Char} {cs : List Char} {p : Piece}
    (h : firstPiece c cs = .ok p) : p.rest.length < (c :: cs).length := by
  have whole := congrArg List.length (text_append_rest h)
  have some := List.length_pos_iff.mpr (text_ne_nil h)
  simp only [List.length_append] at whole
  omega

end LyqlHighlight.Lexical
