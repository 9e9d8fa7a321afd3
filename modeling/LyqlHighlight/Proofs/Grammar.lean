import Mathlib.Data.List.Basic
import LyqlHighlight.Lexical.Piece

namespace LyqlHighlight.Lexical

/-!
# The lexical grammar of LyQL

What each kind of piece may look like, and what may not follow it, said without the functions that
cut pieces off.  The conditions on what follows make every piece as long as it can be.

* `Stops`, `takeWhile_dropWhile_iff` — a run of characters of one class, taken as far as it goes;
* `Fraction`, `Exponent`, `Numeral` — numbers and their parts;
* `Lexeme` — the grammar;
* `firstPiece_eq_ok_iff` — the pieces that are cut off are the ones of the grammar.
-/

/-- The text `rest` does not go on with a character of the class `p`. -/
def Stops (p : Char → Bool) (rest : List Char) : Prop :=
  ∀ c ∈ rest.head?, p c = false

theorem stops_nil (p : Char → Bool) : Stops p [] := by
  simp [Stops]

theorem stops_cons {p : Char → Bool} {c : Char} {cs : List Char} :
    Stops p (c :: cs) ↔ p c = false := by
  simp [Stops]

/-- A run of the class `p` is taken as far as it goes exactly if it is made of `p` and stops. -/
theorem takeWhile_dropWhile_iff {p : Char → Bool} {text run rest : List Char} :
    text.takeWhile p = run ∧ text.dropWhile p = rest ↔
      text = run ++ rest ∧ (∀ c ∈ run, p c = true) ∧ Stops p rest := by
  constructor
  · rintro ⟨rfl, rfl⟩
    refine ⟨List.takeWhile_append_dropWhile.symm, ?_, ?_⟩
    · intro c hc
      exact List.all_eq_true.mp List.all_takeWhile c hc
    · intro c hc
      have stopped := List.head?_dropWhile_not p text
      rw [Option.mem_def.mp hc] at stopped
      simpa using stopped
  · rintro ⟨rfl, inside, stops⟩
    -- The rest starts with no member of the class, so nothing of it is taken.
    have bare : rest.takeWhile p = [] ∧ rest.dropWhile p = rest := by
      cases rest with
      | nil => exact ⟨rfl, rfl⟩
      | cons c cs =>
        have hc := stops_cons.mp stops
        exact ⟨by simp [hc], by simp [hc]⟩
    rw [List.takeWhile_append_of_pos inside, List.dropWhile_append_of_pos inside, bare.1, bare.2]
    exact ⟨List.append_nil run, rfl⟩

/-- Everything in front of the next `q` is taken. -/
theorem takeWhile_bne_iff {q : Char} {text run rest : List Char} :
    text.takeWhile (· != q) = run ∧ text.dropWhile (· != q) = rest ↔
      text = run ++ rest ∧ (∀ c ∈ run, c ≠ q) ∧ ∀ c ∈ rest.head?, c = q := by
  rw [takeWhile_dropWhile_iff]
  simp [Stops]

/-! ### Numbers -/

/-- The digits of a number, of which there is one at least. -/
def IsDigits (text : List Char) : Prop :=
  text ≠ [] ∧ ∀ c ∈ text, c.isDigit = true

/-- What may stand behind the first digits of a number: nothing, or a point with digits. -/
inductive Fraction : List Char → Prop
  /-- No fraction. -/
  | none : Fraction []
  /-- A point and digits. -/
  | point {digits : List Char} (h : IsDigits digits) : Fraction ('.' :: digits)

/-- The characters that open an exponent. -/
def isExponentMark (c : Char) : Bool :=
  c = 'e' || c = 'E'

/-- What may stand behind the fraction of a number: nothing, or an exponent with its digits. -/
inductive Exponent : List Char → Prop
  /-- No exponent. -/
  | none : Exponent []
  /-- A mark, perhaps a sign, and digits. -/
  | mark {c : Char} {sign digits : List Char} (opens : isExponentMark c = true)
      (signed : sign = [] ∨ sign = ['+'] ∨ sign = ['-']) (h : IsDigits digits) :
      Exponent (c :: sign ++ digits)

/-- The text goes on with a point and a digit. -/
def OpensFraction (rest : List Char) : Prop :=
  ∃ d cs, rest = '.' :: d :: cs ∧ d.isDigit = true

theorem isDigits_cons_iff {d : Char} {digits : List Char} :
    IsDigits (d :: digits) ↔ d.isDigit = true ∧ ∀ c ∈ digits, c.isDigit = true := by
  simp [IsDigits]

theorem splitDigits_eq_iff {text digits rest : List Char} :
    splitDigits text = (digits, rest) ↔
      text = digits ++ rest ∧ (∀ c ∈ digits, c.isDigit = true) ∧ Stops Char.isDigit rest := by
  rw [← takeWhile_dropWhile_iff, splitDigits, Prod.mk.injEq]

theorem splitDigits_spec (text : List Char) :
    text = (splitDigits text).1 ++ (splitDigits text).2 ∧
      (∀ c ∈ (splitDigits text).1, c.isDigit = true) ∧ Stops Char.isDigit (splitDigits text).2 :=
  splitDigits_eq_iff.mp rfl

theorem splitDigits_of_isDigits {digits rest : List Char} (h : IsDigits digits)
    (stops : Stops Char.isDigit rest) : splitDigits (digits ++ rest) = (digits, rest) :=
  splitDigits_eq_iff.mpr ⟨rfl, h.2, stops⟩

theorem splitFraction_of_not_opens {text : List Char} (h : ¬ OpensFraction text) :
    splitFraction text = ([], text) := by
  fun_cases splitFraction text with
  | case1 d cs hd => exact absurd ⟨d, cs, rfl, hd⟩ h
  | case2 d cs hd => rfl
  | case3 cs hshape => rfl

/-- A fraction is split off where one opens, and takes all the digits. -/
theorem splitFraction_eq_iff {text fraction rest : List Char} :
    splitFraction text = (fraction, rest) ↔
      text = fraction ++ rest ∧ Fraction fraction ∧
        (fraction = [] → ¬ OpensFraction rest) ∧ (fraction ≠ [] → Stops Char.isDigit rest) := by
  constructor
  · intro h
    -- Either a fraction opens here and is not empty, or nothing is split off.
    by_cases opens : OpensFraction text
    · obtain ⟨d, cs, rfl, hd⟩ := opens
      have split : splitFraction ('.' :: d :: cs) =
          ('.' :: (splitDigits (d :: cs)).1, (splitDigits (d :: cs)).2) := by
        simp [splitFraction, hd]
      obtain ⟨rfl, rfl⟩ := Prod.mk.inj (split.symm.trans h)
      obtain ⟨whole, inside, stops⟩ := splitDigits_spec (d :: cs)
      refine ⟨by rw [List.cons_append, ← whole], .point ⟨?_, inside⟩, by simp, fun _ => stops⟩
      simp [splitDigits, hd]
    · rw [splitFraction_of_not_opens opens] at h
      obtain ⟨rfl, rfl⟩ := Prod.mk.inj h
      exact ⟨rfl, .none, fun _ => opens, fun hne => absurd rfl hne⟩
  · rintro ⟨rfl, shape, closed, stops⟩
    cases shape with
    | none => exact splitFraction_of_not_opens (closed rfl)
    | @point digits h =>
      obtain ⟨d, ds, rfl⟩ := List.exists_cons_of_ne_nil h.1
      have hd := (isDigits_cons_iff.mp h).1
      have split := splitDigits_of_isDigits h (stops (by simp))
      simp only [List.cons_append] at split ⊢
      simp [splitFraction, hd, split]

theorem splitSign_of_isDigits {sign digits rest : List Char}
    (signed : sign = [] ∨ sign = ['+'] ∨ sign = ['-']) (h : IsDigits digits) :
    splitSign (sign ++ digits ++ rest) = (sign, digits ++ rest) := by
  rcases signed with rfl | rfl | rfl
  · -- a digit is no sign, so nothing is split off
    obtain ⟨d, ds, rfl⟩ := List.exists_cons_of_ne_nil h.1
    have hd := (isDigits_cons_iff.mp h).1
    have plus : d ≠ '+' := by rintro rfl; exact absurd hd (by decide)
    have minus : d ≠ '-' := by rintro rfl; exact absurd hd (by decide)
    simp [splitSign, plus, minus]
  · rfl
  · rfl

theorem splitSign_sign (text : List Char) :
    (splitSign text).1 = [] ∨ (splitSign text).1 = ['+'] ∨ (splitSign text).1 = ['-'] := by
  fun_cases splitSign text <;> simp

/-- An exponent is split off where its mark stands, if digits follow, and takes all of them. -/
theorem splitExponent_eq_ok_iff {text exponent rest : List Char} :
    splitExponent text = .ok (exponent, rest) ↔
      text = exponent ++ rest ∧ Exponent exponent ∧
        (exponent = [] → Stops isExponentMark rest) ∧
        (exponent ≠ [] → Stops Char.isDigit rest) := by
  constructor
  · -- Of the four cases the second one, a mark without digits, is an error.
    intro h
    refine ⟨(splitExponent_append h).symm, ?_⟩
    fun_cases splitExponent text with
    | case1 =>
      simp only [splitExponent, Except.ok.injEq, Prod.mk.injEq] at h
      obtain ⟨rfl, rfl⟩ := h
      exact ⟨.none, fun _ => stops_nil _, fun hne => absurd rfl hne⟩
    | case2 c cs hc sign digits hsign hnone => simp [splitExponent, hc, hsign, hnone] at h
    | case3 c cs hc sign digits hsign hsome =>
      simp only [splitExponent, hc, hsign, hsome, if_true, if_false, Except.ok.injEq,
        Prod.mk.injEq] at h
      obtain ⟨rfl, rfl⟩ := h
      have signed := splitSign_sign cs
      rw [hsign] at signed
      obtain ⟨-, inside, stops⟩ := splitDigits_spec digits
      exact ⟨.mark (by simpa [isExponentMark] using hc) signed ⟨hsome, inside⟩, by simp,
        fun _ => stops⟩
    | case4 c cs hc =>
      simp only [splitExponent, hc, if_false, Except.ok.injEq, Prod.mk.injEq] at h
      obtain ⟨rfl, rfl⟩ := h
      refine ⟨.none, fun _ => stops_cons.mpr ?_, fun hne => absurd rfl hne⟩
      simpa [isExponentMark] using hc
  · rintro ⟨rfl, shape, closed, stops⟩
    cases shape with
    | none =>
      cases rest with
      | nil => rfl
      | cons c cs =>
        have hc := stops_cons.mp (closed rfl)
        have unmarked : ¬ (c = 'e' ∨ c = 'E') := by simpa [isExponentMark] using hc
        simp [splitExponent, unmarked]
    | @mark c sign digits opens signed h =>
      have marked : c = 'e' ∨ c = 'E' := by simpa [isExponentMark] using opens
      have hsign : splitSign (sign ++ digits ++ rest) = (sign, digits ++ rest) :=
        splitSign_of_isDigits signed h
      have split := splitDigits_of_isDigits h (stops (by simp))
      rw [List.append_assoc] at hsign
      simp [splitExponent, marked, hsign, split, h.1]

/-- The grammar of numbers: `lexeme` is a number as far as it goes in front of `rest`. -/
inductive Numeral : List Char → List Char → Prop
  /-- Digits with a fraction and an exponent, either of which may be missing. -/
  | mk {whole fraction exponent rest : List Char} (digits : IsDigits whole)
      (pointed : Fraction fraction) (marked : Exponent exponent)
      (noDigit : Stops Char.isDigit rest)
      (noExponent : exponent = [] → Stops isExponentMark rest)
      (noFraction : fraction = [] → exponent = [] → ¬ OpensFraction rest) :
      Numeral (whole ++ fraction ++ exponent) rest

/-- A part of a number that starts with no digit leaves the digits in front of it alone. -/
private theorem stops_digit_append {part rest : List Char} (h : part = [] → Stops Char.isDigit rest)
    (opens : Stops Char.isDigit part) : Stops Char.isDigit (part ++ rest) := by
  cases part with
  | nil => exact h rfl
  | cons c cs => exact stops_cons.mpr (stops_cons.mp opens)

private theorem Fraction.stops {fraction : List Char} (h : Fraction fraction) :
    Stops Char.isDigit fraction := by
  cases h with
  | none => exact stops_nil _
  | point h => exact stops_cons.mpr (by decide)

private theorem exponentMark_eq {c : Char} (h : isExponentMark c = true) : c = 'e' ∨ c = 'E' := by
  simpa [isExponentMark] using h

private theorem Exponent.stops {exponent : List Char} (h : Exponent exponent) :
    Stops Char.isDigit exponent := by
  cases h with
  | none => exact stops_nil _
  | mark opens signed h =>
    rcases exponentMark_eq opens with rfl | rfl <;> exact stops_cons.mpr (by decide)

private theorem Exponent.not_opensFraction {exponent rest : List Char} (h : Exponent exponent)
    (closed : exponent = [] → ¬ OpensFraction rest) : ¬ OpensFraction (exponent ++ rest) := by
  cases h with
  | none => exact closed rfl
  | mark opens signed h =>
    rintro ⟨d, cs, whole, -⟩
    have dot := (List.cons.inj whole).1
    rcases exponentMark_eq opens with rfl | rfl <;> exact absurd dot (by decide)

/-- A number that is cut off belongs to the grammar. -/
theorem numeral_of_firstNumber {c : Char} {cs : List Char} {p : Piece} (hc : c.isDigit = true)
    (h : firstNumber (c :: cs) = .ok p) :
    p.kind = .number ∧ Numeral p.text p.rest := by
  unfold firstNumber at h
  obtain ⟨-, inside, stopsDigits⟩ := splitDigits_spec (c :: cs)
  have some : (splitDigits (c :: cs)).1 ≠ [] := by simp [splitDigits, hc]
  generalize splitDigits (c :: cs) = digits at *
  obtain ⟨digits, behindDigits⟩ := digits
  cases hfraction : splitFraction behindDigits with
  | mk fraction behindFraction =>
    simp only [hfraction] at h
    split at h
    · next exponent rest hexponent =>
      obtain rfl := Except.ok.inj h
      obtain ⟨rfl, pointed, noFraction, stopsFraction⟩ := splitFraction_eq_iff.mp hfraction
      obtain ⟨rfl, marked, noExponent, stopsExponent⟩ := splitExponent_eq_ok_iff.mp hexponent
      refine ⟨rfl, .mk ⟨some, inside⟩ pointed marked ?_ noExponent ?_⟩
      · -- Whichever part comes last has taken all the digits.
        by_cases he : exponent = []
        · subst he
          by_cases hf : fraction = []
          · subst hf
            exact stopsDigits
          · exact stopsFraction hf
        · exact stopsExponent he
      · rintro hf rfl
        exact noFraction hf
    · contradiction

/-- A number of the grammar is the one that is cut off. -/
theorem firstNumber_of_numeral {lexeme rest : List Char} (h : Numeral lexeme rest) :
    firstNumber (lexeme ++ rest) = .ok ⟨.number, lexeme, rest⟩ := by
  cases h with
  | @mk whole fraction exponent _ digits pointed marked noDigit noExponent noFraction =>
    -- What follows each part starts with no digit, so each split ends where the part does.
    have behindFraction : Stops Char.isDigit (exponent ++ rest) :=
      stops_digit_append (fun _ => noDigit) marked.stops
    have behindDigits : Stops Char.isDigit (fraction ++ (exponent ++ rest)) :=
      stops_digit_append (fun _ => behindFraction) pointed.stops
    have hd := splitDigits_of_isDigits digits behindDigits
    have hf : splitFraction (fraction ++ (exponent ++ rest)) = (fraction, exponent ++ rest) :=
      splitFraction_eq_iff.mpr ⟨rfl, pointed,
        fun none => marked.not_opensFraction (noFraction none), fun _ => behindFraction⟩
    have he : splitExponent (exponent ++ rest) = .ok (exponent, rest) :=
      splitExponent_eq_ok_iff.mpr ⟨rfl, marked, noExponent, fun _ => noDigit⟩
    rw [List.append_assoc, List.append_assoc]
    simp [firstNumber, hd, hf, he]

/-! ### Pieces -/

/-- The grammar: a piece `lexeme` of a kind, as far as it goes in front of `rest`. -/
inductive Lexeme : PieceKind → List Char → List Char → Prop
  /-- One character of white space. -/
  | space {c : Char} {rest : List Char} (h : isSpace c = true) : Lexeme .space [c] rest
  /-- Two slashes and the rest of the line. -/
  | comment {body rest : List Char} (line : ∀ c ∈ body, c ≠ '\n')
      (ends : ∀ c ∈ rest.head?, c = '\n') : Lexeme .comment ('/' :: '/' :: body) rest
  /-- Characters between two quotes of one kind. -/
  | string {q : Char} {body rest : List Char} (quote : isQuote q = true)
      (inside : ∀ c ∈ body, c ≠ q) : Lexeme .string (q :: body ++ [q]) rest
  /-- A number. -/
  | number {lexeme rest : List Char} (h : Numeral lexeme rest) : Lexeme .number lexeme rest
  /-- A word, all of it. -/
  | word {c : Char} {cs rest : List Char} (starts : isWordStart c = true)
      (inside : ∀ d ∈ cs, isWordChar d = true) (ends : Stops isWordChar rest) :
      Lexeme .word (c :: cs) rest
  /-- A symbol of two characters. -/
  | pair {c d : Char} {rest : List Char} (h : partner? c = some d) : Lexeme .symbol [c, d] rest
  /-- The first character of such a symbol without the second. -/
  | lone {c : Char} {rest : List Char} (alone : standsAlone c = true)
      (unpaired : rest.head? ≠ partner? c) : Lexeme .symbol [c] rest
  /-- A slash that opens no comment. -/
  | slash {rest : List Char} (single : rest.head? ≠ some '/') : Lexeme .symbol ['/'] rest
  /-- A symbol of one character. -/
  | punctuation {c : Char} {rest : List Char} (h : isPunctuation c = true) :
      Lexeme .symbol [c] rest

/-! ### The first character decides the kind -/

theorem space_eq {c : Char} (h : isSpace c = true) :
    c = ' ' ∨ c = '\r' ∨ c = '\t' ∨ c = '\n' := by
  simpa [isSpace, or_assoc] using h

theorem quote_eq {c : Char} (h : isQuote c = true) :
    c = '\x22' ∨ c = '\x27' ∨ c = '\x60' := by
  simpa [isQuote, or_assoc] using h

private theorem wordMark_eq {c : Char} (h : isWordMark c = true) :
    c = '_' ∨ c = '$' ∨ c = '\\' := by
  simpa [isWordMark, or_assoc] using h

private theorem partner_eq {c d : Char} (h : partner? c = some d) :
    c ∈ ['!', '=', '<', '>', ':', '&', '|'] := by
  unfold partner? at h
  split at h <;> simp_all

/-- No digit is a letter. -/
private theorem isAlpha_of_isDigit {c : Char} (h : c.isDigit = true) : c.isAlpha = false := by
  have digit : c.isDigit = (decide (48 ≤ c.val) && decide (c.val ≤ 57)) := rfl
  have upper : c.isUpper = decide (65 ≤ c.val ∧ c.val ≤ 90) := rfl
  have lower : c.isLower = (decide (97 ≤ c.val) && decide (c.val ≤ 122)) := rfl
  rw [digit, Bool.and_eq_true, decide_eq_true_eq, decide_eq_true_eq] at h
  have below : c.val.toNat ≤ 57 := UInt32.le_iff_toNat_le.mp h.2
  by_contra letter
  rw [Bool.not_eq_false] at letter
  have above : 65 ≤ c.val.toNat := by
    rcases Bool.or_eq_true_iff.mp letter with h | h
    · rw [upper, decide_eq_true_eq] at h
      exact UInt32.le_iff_toNat_le.mp h.1
    · rw [lower, Bool.and_eq_true, decide_eq_true_eq] at h
      exact Nat.le_trans (by decide) (UInt32.le_iff_toNat_le.mp h.1)
  omega

/-- Spaces and quotes open neither a number nor a word. -/
private theorem opens_neither {c : Char} (h : isSpace c = true ∨ isQuote c = true) :
    c.isDigit = false ∧ isWordStart c = false := by
  rcases h with space | quote
  · rcases space_eq space with rfl | rfl | rfl | rfl <;> exact ⟨rfl, rfl⟩
  · rcases quote_eq quote with rfl | rfl | rfl <;> exact ⟨rfl, rfl⟩

private theorem no_space_no_quote {c : Char} (h : c.isDigit = true ∨ isWordStart c = true) :
    isSpace c = false ∧ isQuote c = false := by
  -- The classes on the other side are finite, so their members are tried one by one.
  by_contra separates
  have separator : isSpace c = true ∨ isQuote c = true := by
    rcases Bool.eq_false_or_eq_true (isSpace c) with space | space
    · exact .inl space
    · rcases Bool.eq_false_or_eq_true (isQuote c) with quote | quote
      · exact .inr quote
      · exact absurd ⟨space, quote⟩ separates
  obtain ⟨digit, start⟩ := opens_neither separator
  rw [digit, start] at h
  exact absurd h (by decide)

private theorem isDigit_of_isWordStart {c : Char} (h : isWordStart c = true) :
    c.isDigit = false := by
  by_contra digit
  rw [Bool.not_eq_false] at digit
  rcases Bool.or_eq_true_iff.mp h with letter | mark
  · rw [isAlpha_of_isDigit digit] at letter
    contradiction
  · rcases wordMark_eq mark with rfl | rfl | rfl <;> contradiction

section Dispatch

variable {c : Char} (cs : List Char)

theorem firstPiece_of_isSpace (h : isSpace c = true) :
    firstPiece c cs = .ok ⟨.space, [c], cs⟩ := by
  rw [firstPiece, if_pos h]

theorem firstPiece_of_isQuote (h : isQuote c = true) : firstPiece c cs = firstString c cs := by
  rcases quote_eq h with rfl | rfl | rfl <;> rfl

theorem firstPiece_of_isDigit (h : c.isDigit = true) :
    firstPiece c cs = firstNumber (c :: cs) := by
  obtain ⟨space, quote⟩ := no_space_no_quote (.inl h)
  simp [firstPiece, space, quote, h]

theorem firstPiece_of_isWordStart (h : isWordStart c = true) :
    firstPiece c cs = .ok ⟨.word, c :: cs.takeWhile isWordChar, cs.dropWhile isWordChar⟩ := by
  obtain ⟨space, quote⟩ := no_space_no_quote (.inr h)
  simp [firstPiece, space, quote, isDigit_of_isWordStart h, h]

theorem firstPiece_slash : firstPiece '/' cs = .ok (firstSlash cs) :=
  rfl

theorem firstPiece_of_partner {d : Char} (h : partner? c = some d) :
    firstPiece c cs = firstPaired c d cs := by
  have hd := h
  have hc := partner_eq h
  simp only [List.mem_cons, List.not_mem_nil, or_false] at hc
  rcases hc with rfl | rfl | rfl | rfl | rfl | rfl | rfl <;>
    · cases hd
      rfl

theorem firstPiece_of_isPunctuation (h : isPunctuation c = true) :
    firstPiece c cs = .ok ⟨.symbol, [c], cs⟩ := by
  have hc := List.contains_iff_mem.mp h
  simp only [List.mem_cons, List.not_mem_nil, or_false] at hc
  rcases hc with rfl | rfl | rfl | rfl | rfl | rfl | rfl | rfl | rfl | rfl | rfl | rfl <;> rfl

end Dispatch

/-- A character that stands alone has a partner with which it would not. -/
theorem exists_partner_of_standsAlone {c : Char} (h : standsAlone c = true) :
    ∃ d, partner? c = some d := by
  have hc : c = '!' ∨ c = '=' ∨ c = '<' ∨ c = '>' ∨ c = ':' := by
    simpa [standsAlone, or_assoc] using h
  rcases hc with rfl | rfl | rfl | rfl | rfl <;> exact ⟨_, rfl⟩

/-! ### Cutting off a piece -/

private theorem firstString_eq_ok_iff {q : Char} {cs : List Char} {p : Piece} :
    firstString q cs = .ok p ↔
      p.text ++ p.rest = q :: cs ∧ p.kind = .string ∧
        ∃ body, p.text = q :: body ++ [q] ∧ ∀ c ∈ body, c ≠ q := by
  obtain ⟨kind, text, rest⟩ := p
  constructor
  · intro h
    refine ⟨firstString_append h, ?_⟩
    unfold firstString at h
    split at h
    · contradiction
    · next close behind hclose =>
      obtain ⟨rfl, rfl, rfl⟩ := Piece.mk.inj (Except.ok.inj h)
      obtain ⟨-, inside, stops⟩ := takeWhile_bne_iff.mp ⟨rfl, hclose⟩
      have closed : close = q := stops close rfl
      exact ⟨rfl, _, by rw [closed], inside⟩
  · rintro ⟨whole, rfl, body, rfl, inside⟩
    have whole' : cs = body ++ q :: rest := by simpa using whole.symm
    have stops : ∀ c ∈ (q :: rest).head?, c = q := by simp
    obtain ⟨taken, dropped⟩ := takeWhile_bne_iff.mpr ⟨whole', inside, stops⟩
    simp only [firstString, taken, dropped]

private theorem lexeme_firstSlash (cs : List Char) :
    Lexeme (firstSlash cs).kind (firstSlash cs).text (firstSlash cs).rest := by
  unfold firstSlash
  split
  · next comment =>
    obtain ⟨body, rfl⟩ := List.head?_eq_some_iff.mp comment
    obtain ⟨-, inside, ends⟩ := takeWhile_bne_iff.mp
      (And.intro rfl rfl : body.takeWhile (· != '\n') = _ ∧ body.dropWhile (· != '\n') = _)
    exact .comment inside ends
  · next single => exact .slash single

private theorem lexeme_of_firstPaired {c d : Char} {cs : List Char} {p : Piece}
    (paired : partner? c = some d) (h : firstPaired c d cs = .ok p) :
    Lexeme p.kind p.text p.rest := by
  fun_cases firstPaired c d cs with
  | case1 alone =>
    simp only [firstPaired, alone, if_true] at h
    cases h
    exact .lone alone (by simp [paired])
  | case2 alone => simp [firstPaired, alone] at h
  | case3 cs =>
    simp only [firstPaired, if_true] at h
    cases h
    exact .pair paired
  | case4 e cs other alone =>
    simp only [firstPaired, other, alone, if_true, if_false] at h
    cases h
    exact .lone alone (by simpa [paired] using other)
  | case5 e cs other alone => simp [firstPaired, other, alone] at h

/-- A piece that is cut off belongs to the grammar. -/
theorem lexeme_of_firstPiece {c : Char} {cs : List Char} {p : Piece}
    (h : firstPiece c cs = .ok p) : Lexeme p.kind p.text p.rest := by
  -- One case for each kind of first character, in the order in which they are tried.
  by_cases space : isSpace c = true
  · rw [firstPiece_of_isSpace cs space] at h
    cases h
    exact .space space
  by_cases quote : isQuote c = true
  · rw [firstPiece_of_isQuote cs quote] at h
    obtain ⟨-, kind, body, text, inside⟩ := firstString_eq_ok_iff.mp h
    rw [kind, text]
    exact .string quote inside
  by_cases digit : c.isDigit = true
  · rw [firstPiece_of_isDigit cs digit] at h
    obtain ⟨kind, shape⟩ := numeral_of_firstNumber digit h
    rw [kind]
    exact .number shape
  by_cases start : isWordStart c = true
  · rw [firstPiece_of_isWordStart cs start] at h
    cases h
    obtain ⟨-, inside, ends⟩ := takeWhile_dropWhile_iff.mp
      (And.intro rfl rfl : cs.takeWhile isWordChar = _ ∧ cs.dropWhile isWordChar = _)
    exact .word start inside ends
  by_cases slash : c = '/'
  · rw [slash, firstPiece_slash] at h
    cases h
    exact lexeme_firstSlash cs
  cases paired : partner? c with
  | some d =>
    rw [firstPiece_of_partner cs paired] at h
    exact lexeme_of_firstPaired paired h
  | none =>
    by_cases mark : isPunctuation c = true
    · rw [firstPiece_of_isPunctuation cs mark] at h
      cases h
      exact .punctuation mark
    · simp [firstPiece, space, quote, digit, start, slash, paired, mark] at h

/-- A piece of the grammar is the one that is cut off. -/
theorem firstPiece_of_lexeme {kind : PieceKind} {text rest : List Char} {c : Char}
    {cs : List Char} (h : Lexeme kind text rest) (whole : text ++ rest = c :: cs) :
    firstPiece c cs = .ok ⟨kind, text, rest⟩ := by
  cases h with
  | space h =>
    obtain ⟨rfl, rfl⟩ := List.cons.inj whole
    exact firstPiece_of_isSpace _ h
  | @comment body _ line ends =>
    obtain ⟨rfl, rfl⟩ := List.cons.inj whole
    obtain ⟨taken, dropped⟩ := takeWhile_bne_iff.mpr ⟨rfl, line, ends⟩
    rw [firstPiece_slash]
    simp [firstSlash, taken, dropped]
  | @string q body _ quote inside =>
    have first : q = c := by simpa using (List.cons.inj whole).1
    subst first
    rw [firstPiece_of_isQuote cs quote]
    exact firstString_eq_ok_iff.mpr ⟨whole, rfl, body, rfl, inside⟩
  | number shape =>
    have digit : c.isDigit = true := by
      cases shape with
      | mk digits =>
        obtain ⟨d, ds, rfl⟩ := List.exists_cons_of_ne_nil digits.1
        have first : d = c := (List.cons.inj (by simpa using whole)).1
        rw [← first]
        exact (isDigits_cons_iff.mp digits).1
    rw [firstPiece_of_isDigit cs digit, ← whole]
    exact firstNumber_of_numeral shape
  | word starts inside ends =>
    obtain ⟨rfl, rfl⟩ := List.cons.inj whole
    obtain ⟨taken, dropped⟩ := takeWhile_dropWhile_iff.mpr ⟨rfl, inside, ends⟩
    rw [firstPiece_of_isWordStart _ starts]
    exact congrArg Except.ok (by rw [List.append_eq, taken, dropped])
  | pair h =>
    obtain ⟨rfl, rfl⟩ := List.cons.inj whole
    rw [firstPiece_of_partner _ h]
    simp [firstPaired]
  | lone alone unpaired =>
    obtain ⟨rfl, rfl⟩ := List.cons.inj whole
    obtain ⟨d, hd⟩ := exists_partner_of_standsAlone alone
    rw [firstPiece_of_partner _ hd]
    rw [hd] at unpaired
    cases rest with
    | nil => simp [firstPaired, alone]
    | cons e rest =>
      have other : e ≠ d := by simpa using unpaired
      simp [firstPaired, other, alone]
  | slash single =>
    obtain ⟨rfl, rfl⟩ := List.cons.inj whole
    rw [firstPiece_slash]
    exact congrArg Except.ok (if_neg single)
  | punctuation h =>
    obtain ⟨rfl, rfl⟩ := List.cons.inj whole
    exact firstPiece_of_isPunctuation _ h

/-- Exactly the pieces of the grammar are cut off. -/
theorem firstPiece_eq_ok_iff {c : Char} {cs : List Char} {p : Piece} :
    firstPiece c cs = .ok p ↔ p.text ++ p.rest = c :: cs ∧ Lexeme p.kind p.text p.rest := by
  constructor
  · intro h
    exact ⟨text_append_rest h, lexeme_of_firstPiece h⟩
  · rintro ⟨whole, h⟩
    exact firstPiece_of_lexeme h whole

theorem Lexeme.ne_nil {kind : PieceKind} {text rest : List Char} (h : Lexeme kind text rest) :
    text ≠ [] := by
  cases h with
  | number shape =>
    cases shape with
    | mk digits => simp [digits.1]
  | _ => simp

end LyqlHighlight.Lexical
