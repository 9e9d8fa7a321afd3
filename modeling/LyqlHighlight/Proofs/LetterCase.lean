import LyqlHighlight.Proofs.Lines
import LyqlHighlight.Proofs.TokenRow

namespace LyqlHighlight.Lexical

/-!
# The case of letters

No class of characters tells the two cases of an ASCII letter apart, so texts that differ in nothing
else are cut into pieces in the same way.  What may differ is the class of a word: a reserved word
has its own in lower case only.

* `SameUpToCase`, `foldCase` — texts that differ in the case of ASCII letters only, and what they
  have in common;
* `apply_toLower` — what does not tell the cases of a letter apart;
* `firstPiece_foldCase` — the first piece of a text in lower case;
* `Reserved`, `freeWordTag_congr`, `freeWordTag_of_other_case` — the words that count in lower case
  only, and the classes of words that differ in case;
* `Token.SameUpToCase`, `Scan.SameUpToCase` — tokens and scans of two such texts;
* `scanFrom_sameUpToCase` — both texts scanned side by side;
* `scan_upToCase` — the main result.
-/

/-! ### Texts up to the case of letters -/

/-- The texts have the same length, and at each position they differ in the case of an ASCII letter
    at most. -/
def SameUpToCase (text text' : List Char) : Prop :=
  List.Forall₂ (fun c d => c.toLower = d.toLower) text text'

/-- A text with its ASCII letters in lower case. -/
def foldCase (text : List Char) : List Char :=
  text.map Char.toLower

theorem sameUpToCase_iff {text text' : List Char} :
    SameUpToCase text text' ↔ foldCase text = foldCase text' := by
  unfold SameUpToCase foldCase
  rw [← List.forall₂_eq_eq_eq, List.forall₂_map_left_iff, List.forall₂_map_right_iff]

@[simp] theorem foldCase_nil : foldCase [] = [] := rfl

@[simp] theorem foldCase_cons (c : Char) (cs : List Char) :
    foldCase (c :: cs) = c.toLower :: foldCase cs :=
  rfl

@[simp] theorem foldCase_append (text text' : List Char) :
    foldCase (text ++ text') = foldCase text ++ foldCase text' :=
  List.map_append

@[simp] theorem length_foldCase (text : List Char) : (foldCase text).length = text.length :=
  List.length_map ..

@[simp] theorem foldCase_eq_nil_iff {text : List Char} : foldCase text = [] ↔ text = [] :=
  List.map_eq_nil_iff

theorem length_eq_of_foldCase {text text' : List Char} (same : foldCase text = foldCase text') :
    text.length = text'.length := by
  rw [← length_foldCase, same, length_foldCase]

/-! ### Characters -/

/-- A function that gives the same for both cases of each ASCII letter does not depend on the
    case. -/
theorem apply_toLower {α : Type} (f : Char → α)
    (letters : ∀ i : Fin 26, f (Char.ofNat (65 + i)).toLower = f (Char.ofNat (65 + i))) (c : Char) :
    f c.toLower = f c := by
  by_cases upper : c.isUpper = true
  · have bounds : 65 ≤ c.toNat ∧ c.toNat ≤ 90 := by
      simpa [Char.isUpper, UInt32.le_iff_toNat_le] using upper
    have letter := letters ⟨c.toNat - 65, by omega⟩
    rw [Nat.add_sub_cancel' bounds.1, Char.ofNat_toNat] at letter
    exact letter
  · rw [Char.toLower_eq_of_not_isUpper upper]

/-- Characters other than letters have no case. -/
theorem toLower_eq_self {c : Char} (other : c.isAlpha = false) : c.toLower = c := by
  apply Char.toLower_eq_of_not_isUpper
  intro upper
  rw [Char.isAlpha, upper] at other
  contradiction

/-- Only the character itself has the lower case of a character that is no letter. -/
theorem toLower_eq_iff {c d : Char} (other : d.isAlpha = false) : c.toLower = d ↔ c = d := by
  constructor
  · rintro rfl
    rw [Char.isAlpha_toLower_eq_isAlpha] at other
    exact (toLower_eq_self other).symm
  · rintro rfl
    exact toLower_eq_self other

@[simp] theorem isSpace_toLower (c : Char) : isSpace c.toLower = isSpace c :=
  apply_toLower _ (by decide) c

@[simp] theorem isDigit_toLower (c : Char) : c.toLower.isDigit = c.isDigit :=
  apply_toLower Char.isDigit (by decide) c

@[simp] theorem isExponentMark_toLower (c : Char) : isExponentMark c.toLower = isExponentMark c :=
  apply_toLower _ (by decide) c

@[simp] theorem isWordStart_toLower (c : Char) : isWordStart c.toLower = isWordStart c :=
  apply_toLower _ (by decide) c

@[simp] theorem isWordChar_toLower (c : Char) : isWordChar c.toLower = isWordChar c :=
  apply_toLower _ (by decide) c

@[simp] theorem capitalsOf_toLower (c : Char) :
    Text.capitalsOf c.toLower = Text.capitalsOf c :=
  apply_toLower _ (by decide) c

theorem isAlpha_of_isQuote {c : Char} (h : isQuote c = true) : c.isAlpha = false := by
  rcases quote_eq h with rfl | rfl | rfl <;> rfl

theorem isAlpha_of_partner {c d : Char} (h : partner? c = some d) : d.isAlpha = false := by
  unfold partner? at h
  split at h <;> simp at h <;> subst h <;> rfl

theorem isAlpha_of_not_isWordStart {c : Char} (h : ¬isWordStart c = true) : c.isAlpha = false := by
  by_contra letter
  exact h (by simp [isWordStart, letter])

/-- A text that starts with a character other than a letter does so in lower case, and only it
    does. -/
theorem foldCase_eq_cons_iff {c : Char} (other : c.isAlpha = false) {text folded : List Char} :
    foldCase text = c :: folded ↔ ∃ cs, text = c :: cs ∧ foldCase cs = folded := by
  constructor
  · intro h
    cases text with
    | nil => contradiction
    | cons d ds =>
      obtain ⟨first, behind⟩ := List.cons.inj h
      rw [(toLower_eq_iff other).mp first]
      exact ⟨ds, rfl, behind⟩
  · rintro ⟨cs, rfl, rfl⟩
    rw [foldCase_cons, toLower_eq_self other]

/-- A dot has no case. -/
theorem eq_dot_congr {text text' : List Char} (same : foldCase text = foldCase text') :
    text = ['.'] ↔ text' = ['.'] := by
  have folded (text : List Char) : foldCase text = ['.'] ↔ text = ['.'] := by
    rw [foldCase_eq_cons_iff (by decide)]
    simp
  rw [← folded, same, folded]

theorem head?_foldCase_eq_some_iff {c : Char} (other : c.isAlpha = false) {text : List Char} :
    (foldCase text).head? = some c ↔ text.head? = some c := by
  cases text with
  | nil => rfl
  | cons d ds => simp [toLower_eq_iff other]

/-! ### Pieces -/

section Runs

variable {p : Char → Bool} (invariant : ∀ c, p c.toLower = p c) (text : List Char)
include invariant

theorem takeWhile_foldCase : (foldCase text).takeWhile p = foldCase (text.takeWhile p) := by
  unfold foldCase
  rw [List.takeWhile_map, show p ∘ Char.toLower = p from funext invariant]

theorem dropWhile_foldCase : (foldCase text).dropWhile p = foldCase (text.dropWhile p) := by
  unfold foldCase
  rw [List.dropWhile_map, show p ∘ Char.toLower = p from funext invariant]

end Runs

theorem bne_toLower {d : Char} (other : d.isAlpha = false) (c : Char) :
    (c.toLower != d) = (c != d) := by
  rw [Bool.eq_iff_iff, bne_iff_ne, bne_iff_ne, Ne, toLower_eq_iff other]

theorem splitDigits_foldCase (text : List Char) :
    splitDigits (foldCase text) = (splitDigits text).map foldCase foldCase := by
  unfold splitDigits
  rw [takeWhile_foldCase isDigit_toLower, dropWhile_foldCase isDigit_toLower]
  rfl

theorem OpensFraction.of_foldCase {text : List Char} (h : OpensFraction (foldCase text)) :
    OpensFraction text := by
  obtain ⟨d, cs, whole, digit⟩ := h
  obtain ⟨rest, rfl, behind⟩ := (foldCase_eq_cons_iff (by decide)).mp whole
  cases rest with
  | nil => contradiction
  | cons e es =>
    obtain ⟨rfl, -⟩ := List.cons.inj behind
    exact ⟨e, es, rfl, by rwa [isDigit_toLower] at digit⟩

theorem splitFraction_foldCase (text : List Char) :
    splitFraction (foldCase text) = (splitFraction text).map foldCase foldCase := by
  by_cases opens : OpensFraction text
  · obtain ⟨d, cs, rfl, digit⟩ := opens
    have digits := splitDigits_foldCase (d :: cs)
    rw [foldCase_cons] at digits
    simp [splitFraction, digit, digits, toLower_eq_self]
  · rw [splitFraction_of_not_opens opens,
      splitFraction_of_not_opens (mt OpensFraction.of_foldCase opens)]
    rfl

theorem splitSign_foldCase (text : List Char) :
    splitSign (foldCase text) = (splitSign text).map foldCase foldCase := by
  cases text with
  | nil => rfl
  | cons c cs =>
    by_cases plus : c = '+'
    · subst plus
      rfl
    by_cases minus : c = '-'
    · subst minus
      rfl
    have plus' : c.toLower ≠ '+' := mt (toLower_eq_iff (by decide)).mp plus
    have minus' : c.toLower ≠ '-' := mt (toLower_eq_iff (by decide)).mp minus
    simp [splitSign, plus, minus, plus', minus']

theorem splitExponent_foldCase (text : List Char) :
    splitExponent (foldCase text) = (splitExponent text).map (Prod.map foldCase foldCase) := by
  cases text with
  | nil => rfl
  | cons c cs =>
    have marks : (c.toLower = 'e' ∨ c.toLower = 'E') ↔ (c = 'e' ∨ c = 'E') := by
      simpa [isExponentMark] using congrArg (· = true) (isExponentMark_toLower c)
    simp only [foldCase_cons, splitExponent, marks, splitSign_foldCase, Prod.map_fst, Prod.map_snd,
      splitDigits_foldCase, foldCase_eq_nil_iff, length_foldCase]
    split
    · split <;> simp [Except.map]
    · simp [Except.map]

/-- A piece of a text in lower case. -/
def Piece.foldCase (p : Piece) : Piece :=
  ⟨p.kind, Lexical.foldCase p.text, Lexical.foldCase p.rest⟩

theorem firstNumber_foldCase (text : List Char) :
    firstNumber (foldCase text) = (firstNumber text).map Piece.foldCase := by
  simp only [firstNumber, splitDigits_foldCase, Prod.map_fst, Prod.map_snd, splitFraction_foldCase,
    splitExponent_foldCase, length_foldCase]
  cases splitExponent (splitFraction (splitDigits text).2).2 with
  | error length => rfl
  | ok parts => simp [Except.map, Piece.foldCase]

theorem firstString_foldCase {q : Char} (other : q.isAlpha = false) (cs : List Char) :
    firstString q (foldCase cs) = (firstString q cs).map Piece.foldCase := by
  have body := takeWhile_foldCase (p := (· != q)) (bne_toLower other) cs
  have behind := dropWhile_foldCase (p := (· != q)) (bne_toLower other) cs
  simp only [firstString, body, behind, length_foldCase]
  cases cs.dropWhile (· != q) with
  | nil => rfl
  | cons close rest => simp [Except.map, Piece.foldCase, toLower_eq_self other]

theorem firstSlash_foldCase (cs : List Char) :
    firstSlash (foldCase cs) = (firstSlash cs).foldCase := by
  have line := takeWhile_foldCase (p := (· != '\n')) (bne_toLower rfl) cs
  have behind := dropWhile_foldCase (p := (· != '\n')) (bne_toLower rfl) cs
  have second : (foldCase cs).head? = some '/' ↔ cs.head? = some '/' :=
    head?_foldCase_eq_some_iff rfl
  simp only [firstSlash, second, line, behind]
  split <;> rfl

theorem firstPaired_foldCase {c partner : Char} (other : c.isAlpha = false)
    (other' : partner.isAlpha = false) (cs : List Char) :
    firstPaired c partner (foldCase cs) = (firstPaired c partner cs).map Piece.foldCase := by
  cases cs with
  | nil =>
    simp only [foldCase_nil, firstPaired]
    split <;> simp [Except.map, Piece.foldCase, toLower_eq_self other]
  | cons d ds =>
    simp only [foldCase_cons, firstPaired, toLower_eq_iff other']
    split
    · simp [Except.map, Piece.foldCase, toLower_eq_self other]
    · split <;> simp [Except.map, Piece.foldCase, toLower_eq_self other]

/-- **The first piece in lower case.**  A text in lower case starts with the piece that the text
    itself starts with, in lower case, or with the same fault. -/
theorem firstPiece_foldCase (c : Char) (cs : List Char) :
    firstPiece c.toLower (foldCase cs) = (firstPiece c cs).map Piece.foldCase := by
  -- The classes of the first character are the same, so both dispatches take the same way.
  by_cases space : isSpace c = true
  · rw [firstPiece_of_isSpace _ space, firstPiece_of_isSpace _ (by rwa [isSpace_toLower])]
    rfl
  by_cases quote : isQuote c = true
  · have other := isAlpha_of_isQuote quote
    rw [toLower_eq_self other, firstPiece_of_isQuote _ quote, firstPiece_of_isQuote _ quote,
      firstString_foldCase other]
  by_cases digit : c.isDigit = true
  · rw [firstPiece_of_isDigit _ digit, firstPiece_of_isDigit _ (by rwa [isDigit_toLower]),
      ← foldCase_cons, firstNumber_foldCase]
  by_cases start : isWordStart c = true
  · rw [firstPiece_of_isWordStart _ start,
      firstPiece_of_isWordStart _ (by rwa [isWordStart_toLower]),
      takeWhile_foldCase isWordChar_toLower, dropWhile_foldCase isWordChar_toLower]
    rfl
  -- All that is left has no case.
  have other := isAlpha_of_not_isWordStart start
  rw [toLower_eq_self other]
  by_cases slash : c = '/'
  · rw [slash, firstPiece_slash, firstPiece_slash, firstSlash_foldCase]
    rfl
  cases paired : partner? c with
  | some d =>
    rw [firstPiece_of_partner _ paired, firstPiece_of_partner _ paired,
      firstPaired_foldCase other (isAlpha_of_partner paired)]
  | none =>
    by_cases mark : isPunctuation c = true
    · rw [firstPiece_of_isPunctuation _ mark, firstPiece_of_isPunctuation _ mark]
      simp [Except.map, Piece.foldCase, toLower_eq_self other]
    · simp [firstPiece, space, quote, digit, start, slash, paired, mark, Except.map]

section SideBySide

variable {c : Char} {cs text : List Char} (same : foldCase (c :: cs) = foldCase text)
include same

theorem exists_firstPiece_map : ∃ d ds, text = d :: ds ∧
    (firstPiece c cs).map Piece.foldCase = (firstPiece d ds).map Piece.foldCase := by
  cases text with
  | nil => contradiction
  | cons d ds =>
    obtain ⟨first, behind⟩ := List.cons.inj same
    have behind : foldCase cs = foldCase ds := behind
    exact ⟨d, ds, rfl, by rw [← firstPiece_foldCase, ← firstPiece_foldCase, first, behind]⟩

/-- Texts that differ in the case of letters only have the same fault. -/
theorem exists_firstPiece_of_error {fault : Fault} (broken : firstPiece c cs = .error fault) :
    ∃ d ds, text = d :: ds ∧ firstPiece d ds = .error fault := by
  obtain ⟨d, ds, whole, pieces⟩ := exists_firstPiece_map same
  rw [broken] at pieces
  refine ⟨d, ds, whole, ?_⟩
  cases cut : firstPiece d ds with
  | error fault' => rw [cut] at pieces; exact pieces.symm
  | ok q => rw [cut] at pieces; contradiction

/-- Texts that differ in the case of letters only start with the same piece up to the case. -/
theorem exists_firstPiece_of_ok {p : Piece} (cut : firstPiece c cs = .ok p) :
    ∃ d ds q, text = d :: ds ∧ firstPiece d ds = .ok q ∧ p.foldCase = q.foldCase := by
  obtain ⟨d, ds, whole, pieces⟩ := exists_firstPiece_map same
  rw [cut] at pieces
  cases cut' : firstPiece d ds with
  | error fault => rw [cut'] at pieces; contradiction
  | ok q =>
    rw [cut'] at pieces
    exact ⟨d, ds, q, whole, cut', Except.ok.inj pieces⟩

end SideBySide

/-! ### Words -/

/-- The words that have a class of their own in lower case only. -/
def reservedWords : List String :=
  keywords ++ literals.map Prod.fst

/-- The word is a reserved one. -/
def Reserved (word : List Char) : Prop :=
  String.ofList word ∈ reservedWords

instance (word : List Char) : Decidable (Reserved word) :=
  inferInstanceAs (Decidable (String.ofList word ∈ reservedWords))

namespace Reserved

/-- The words are finitely many, so what all of them have in common can be checked. -/
theorem of_forall {p : List Char → Prop} (all : ∀ r ∈ reservedWords, p r.toList) {word : List Char}
    (h : Reserved word) : p word := by
  simpa using all _ h

theorem foldCase_eq {word : List Char} (h : Reserved word) : foldCase word = word :=
  of_forall (p := fun word => foldCase word = word) (by decide) h

theorem isWordStart_head? {word : List Char} (h : Reserved word) :
    word.head?.any isWordStart = true :=
  of_forall (p := fun word => word.head?.any isWordStart = true) (by decide) h

theorem freeWordTag_ne {word : List Char} (h : Reserved word) : freeWordTag word ≠ .identifier :=
  of_forall (p := fun word => freeWordTag word ≠ .identifier) (by decide) h

/-- No keyword of queries is a reserved word in capitals. -/
theorem capitals_notMem {word : List Char} (h : Reserved word) :
    String.ofList (Text.capitals word) ∉ sqlKeywords :=
  of_forall (p := fun word => String.ofList (Text.capitals word) ∉ sqlKeywords) (by decide) h

end Reserved

theorem freeWordTag_of_not_reserved {word : List Char} (h : ¬Reserved word) :
    freeWordTag word =
      if String.ofList (Text.capitals word) ∈ sqlKeywords then .sqlKeyword else .identifier := by
  obtain ⟨keyword, literal⟩ := not_or.mp (mt List.mem_append.mpr h)
  have unknown : literals.lookup (String.ofList word) = none := by
    rw [List.lookup_eq_none_iff]
    intro entry he
    rw [bne_iff_ne]
    rintro same
    exact literal (same ▸ List.mem_map_of_mem he)
  rw [freeWordTag, if_neg keyword, unknown]

theorem capitals_foldCase (word : List Char) :
    Text.capitals (foldCase word) = Text.capitals word := by
  simp [Text.capitals, foldCase, List.flatMap_map]

/-- Two words that are both reserved, or both not, have the same class. -/
theorem freeWordTag_congr {word word' : List Char} (same : foldCase word = foldCase word')
    (both : Reserved word ↔ Reserved word') : freeWordTag word = freeWordTag word' := by
  by_cases h : Reserved word
  · -- Reserved words are in lower case, so there is one word only.
    rw [h.foldCase_eq, (both.mp h).foldCase_eq] at same
    rw [same]
  · rw [freeWordTag_of_not_reserved h, freeWordTag_of_not_reserved (mt both.mpr h),
      ← capitals_foldCase word, same, capitals_foldCase]

/-- In another case a reserved word is a name. -/
theorem freeWordTag_of_other_case {word word' : List Char} (same : foldCase word = foldCase word')
    (h : Reserved word) (h' : ¬Reserved word') : freeWordTag word' = .identifier := by
  have unknown := h.capitals_notMem
  rw [← capitals_foldCase, same, capitals_foldCase] at unknown
  rw [freeWordTag_of_not_reserved h', if_neg unknown]

/-- A word is forced to be a name: it stands behind a dot, or it starts with a backslash. -/
def Forced (afterDot : Bool) (word : List Char) : Prop :=
  afterDot = true ∨ word.head? = some '\\'

theorem wordTag_of_forced {afterDot : Bool} {word : List Char} (h : Forced afterDot word) :
    wordTag afterDot word = .identifier :=
  if_pos h

theorem wordTag_of_not_forced {afterDot : Bool} {word : List Char} (h : ¬Forced afterDot word) :
    wordTag afterDot word = freeWordTag word :=
  if_neg h

theorem forced_congr {word word' : List Char} (same : foldCase word = foldCase word')
    (afterDot : Bool) : Forced afterDot word ↔ Forced afterDot word' := by
  unfold Forced
  rw [← head?_foldCase_eq_some_iff (by decide), same, head?_foldCase_eq_some_iff (by decide)]

/-! ### Tokens -/

/-- Two tokens, behind a dot or not, of texts that differ in the case of letters only. -/
structure Token.SameUpToCase (afterDot : Bool) (t u : Token) : Prop where
  /-- They start at the same place. -/
  start : t.start = u.start
  /-- Their characters differ in the case of letters only. -/
  lexeme : foldCase t.lexeme = foldCase u.lexeme
  /-- They have the same class, unless exactly one of them is a reserved word and nothing forces it
      to be a name. -/
  tag_eq : Forced afterDot t.lexeme ∨ (Reserved t.lexeme ↔ Reserved u.lexeme) → t.tag = u.tag
  /-- If only the first one is reserved, the second one is a name. -/
  name_right : ¬Forced afterDot t.lexeme → Reserved t.lexeme → ¬Reserved u.lexeme →
    t.tag ≠ .identifier ∧ u.tag = .identifier
  /-- If only the second one is reserved, the first one is a name. -/
  name_left : ¬Forced afterDot t.lexeme → ¬Reserved t.lexeme → Reserved u.lexeme →
    t.tag = .identifier ∧ u.tag ≠ .identifier

namespace Token.SameUpToCase

variable {afterDot : Bool} {t u : Token}

theorem span_eq (h : t.SameUpToCase afterDot u) : t.span = u.span := by
  simp only [Token.span, Token.stop, h.start, length_eq_of_foldCase h.lexeme]

/-- Tokens that are no reserved words have their class in any case. -/
theorem of_not_reserved {tag : TokenTag} {text text' : List Char} {start : Nat}
    (same : foldCase text = foldCase text') (other : ¬Reserved text) (other' : ¬Reserved text') :
    SameUpToCase afterDot ⟨tag, text, start⟩ ⟨tag, text', start⟩ where
  start := rfl
  lexeme := same
  tag_eq _ := rfl
  name_right _ h _ := absurd h other
  name_left _ _ h := absurd h other'

/-- Words have the same class unless exactly one of them is reserved. -/
theorem of_word {word word' : List Char} {start : Nat} (same : foldCase word = foldCase word') :
    SameUpToCase afterDot ⟨wordTag afterDot word, word, start⟩
      ⟨wordTag afterDot word', word', start⟩ := by
  by_cases h : Forced afterDot word
  · rw [wordTag_of_forced h, wordTag_of_forced ((forced_congr same _).mp h)]
    exact ⟨rfl, same, fun _ => rfl, fun free => absurd h free, fun free => absurd h free⟩
  · rw [wordTag_of_not_forced h, wordTag_of_not_forced (mt (forced_congr same _).mpr h)]
    refine ⟨rfl, same, fun both => ?_, fun _ hw hw' => ?_, fun _ hw hw' => ?_⟩
    · exact freeWordTag_congr same (both.resolve_left h)
    · exact ⟨hw.freeWordTag_ne, freeWordTag_of_other_case same hw hw'⟩
    · exact ⟨freeWordTag_of_other_case same.symm hw' hw, hw'.freeWordTag_ne⟩

end Token.SameUpToCase

/-- Only words are reserved. -/
theorem Lexeme.kind_of_reserved {kind : PieceKind} {text rest : List Char}
    (lexeme : Lexeme kind text rest) (h : Reserved text) : kind = .word :=
  lexeme.kind_eq_word_iff.mpr h.isWordStart_head?

/-- Pieces that differ in the case of letters only are both reported, or both are not. -/
theorem tokenTag?_sameUpToCase {c d : Char} {cs ds : List Char} {p q : Piece}
    (cut : firstPiece c cs = .ok p) (cut' : firstPiece d ds = .ok q)
    (same : p.foldCase = q.foldCase) (afterDot : Bool) (start : Nat) :
    (tokenTag? afterDot p = none ∧ tokenTag? afterDot q = none) ∨
      ∃ tag tag', tokenTag? afterDot p = some tag ∧ tokenTag? afterDot q = some tag' ∧
        Token.SameUpToCase afterDot ⟨tag, p.text, start⟩ ⟨tag', q.text, start⟩ := by
  have lexeme := lexeme_of_firstPiece cut
  have lexeme' := lexeme_of_firstPiece cut'
  obtain ⟨kind, text, rest⟩ := p
  obtain ⟨kind', text', rest'⟩ := q
  obtain ⟨rfl, texts, -⟩ := Piece.mk.inj same
  by_cases word : kind = .word
  · subst word
    exact .inr ⟨_, _, rfl, rfl, .of_word texts⟩
  · have other (tag : TokenTag) :
        Token.SameUpToCase afterDot ⟨tag, text, start⟩ ⟨tag, text', start⟩ :=
      .of_not_reserved texts (mt lexeme.kind_of_reserved word) (mt lexeme'.kind_of_reserved word)
    cases kind with
    | space => exact .inl ⟨rfl, rfl⟩
    | comment => exact .inl ⟨rfl, rfl⟩
    | string => exact .inr ⟨_, _, rfl, rfl, other _⟩
    | number => exact .inr ⟨_, _, rfl, rfl, other _⟩
    | word => contradiction
    | symbol => exact .inr ⟨_, _, rfl, rfl, other _⟩

/-! ### Scans -/

/-- Two scans, behind a dot or not, of texts that differ in the case of letters only. -/
inductive Scan.SameUpToCase : Bool → Scan → Scan → Prop
  /-- Both end, perhaps with the same error. -/
  | done (afterDot : Bool) (error : Option ScanError) :
      SameUpToCase afterDot ⟨[], error⟩ ⟨[], error⟩
  /-- Both report a token and go on. -/
  | cons {afterDot : Bool} {t u : Token} {s s' : Scan} (first : t.SameUpToCase afterDot u)
      (behind : SameUpToCase (t.lexeme = ['.']) s s') :
      SameUpToCase afterDot (s.cons t) (s'.cons u)

/-- **Side by side.**  Scans of texts that differ in the case of letters only stay side by side. -/
theorem scanFrom_sameUpToCase {text text' : List Char} (same : foldCase text = foldCase text')
    (afterDot : Bool) (start : Nat) :
    (scanFrom afterDot start text).SameUpToCase afterDot (scanFrom afterDot start text') := by
  -- The recursion of the first scan; the second one cuts off the same piece up to the case.
  fun_induction scanFrom afterDot start text generalizing text' with
  | case1 afterDot start =>
    obtain rfl := foldCase_eq_nil_iff.mp same.symm
    rw [scanFrom]
    exact .done afterDot none
  | case2 afterDot start c cs fault broken =>
    obtain ⟨d, ds, rfl, broken'⟩ := exists_firstPiece_of_error same broken
    rw [scanFrom_of_fault broken']
    exact .done afterDot _
  | case3 afterDot start c cs p cut blank ih =>
    obtain ⟨d, ds, q, rfl, cut', pieces⟩ := exists_firstPiece_of_ok same cut
    obtain ⟨-, texts, rests⟩ := Piece.mk.inj pieces
    rcases tokenTag?_sameUpToCase cut cut' pieces afterDot start with
      ⟨-, blank'⟩ | ⟨_, _, named, _⟩
    · rw [scanFrom_of_firstPiece cut', blank', ← length_eq_of_foldCase texts]
      exact ih rests
    · rw [blank] at named
      contradiction
  | case4 afterDot start c cs p cut tag named ih =>
    obtain ⟨d, ds, q, rfl, cut', pieces⟩ := exists_firstPiece_of_ok same cut
    obtain ⟨-, texts, rests⟩ := Piece.mk.inj pieces
    rcases tokenTag?_sameUpToCase cut cut' pieces afterDot start with
      ⟨blank, -⟩ | ⟨_, tag', named', named'', tokens⟩
    · rw [blank] at named
      contradiction
    · obtain rfl := Option.some.inj (named.symm.trans named')
      have dot : decide (q.text = ['.']) = decide (p.text = ['.']) :=
        decide_eq_decide.mpr (eq_dot_congr texts.symm)
      rw [scanFrom_of_firstPiece cut', named'', ← length_eq_of_foldCase texts, dot]
      exact .cons tokens (ih rests)

/-- What two scans side by side have in common, and where their tokens differ. -/
theorem Scan.SameUpToCase.spec {afterDot : Bool} {s s' : Scan} (h : s.SameUpToCase afterDot s') :
    s.error = s'.error ∧ s.tokens.map Token.span = s'.tokens.map Token.span ∧
      ∀ (i : Nat) (t u : Token), s.tokens[i]? = some t → s'.tokens[i]? = some u →
        t.SameUpToCase (dotBehind afterDot (s.tokens.take i)) u := by
  induction h with
  | done afterDot error => exact ⟨rfl, rfl, fun i t u ht => by simp at ht⟩
  | @cons afterDot t u s s' first behind ih =>
    obtain ⟨error, spans, tokens⟩ := ih
    refine ⟨error, ?_, fun i => ?_⟩
    · show _ :: _ = _ :: _
      rw [first.span_eq, spans]
    · intro t' u' ht hu
      cases i with
      | zero =>
        obtain rfl := Option.some.inj ht
        obtain rfl := Option.some.inj hu
        exact first
      | succ i =>
        have later := tokens i t' u' ht hu
        show Token.SameUpToCase (dotBehind afterDot (t :: s.tokens.take i)) t' u'
        rw [dotBehind_cons]
        exact later

/-- **Up to the case of letters.**  Texts that differ in the case of ASCII letters only are scanned
    alike: both without an error, or with the same one, and their tokens take the same places one by
    one.  Two tokens at one place have the same class, unless exactly one of them is a reserved word
    that neither a dot in front of it nor a backslash forces to be a name; then the other one is a
    name. -/
theorem scan_upToCase {text text' : String} (same : SameUpToCase text.toList text'.toList) :
    (scan text).error = (scan text').error ∧
      (scan text).tokens.map Token.span = (scan text').tokens.map Token.span ∧
      ∀ (i : Nat) (t u : Token),
        (scan text).tokens[i]? = some t → (scan text').tokens[i]? = some u →
        t.SameUpToCase (dotBehind false ((scan text).tokens.take i)) u :=
  (scanFrom_sameUpToCase (sameUpToCase_iff.mp same) false 0).spec

/-- In capitals a keyword is a name, while behind a dot it is one in any case. -/
theorem scan_upToCase_if :
    SameUpToCase "a.If if 1e5@".toList "A.if IF 1E5@".toList ∧
      (scan "a.If if 1e5@").error = (scan "A.if IF 1E5@").error ∧
      ∃ behindDot behindDot' keyword keyword' : Token,
        (scan "a.If if 1e5@").tokens[2]? = some behindDot ∧
        (scan "A.if IF 1E5@").tokens[2]? = some behindDot' ∧ behindDot.tag = behindDot'.tag ∧
        (scan "a.If if 1e5@").tokens[3]? = some keyword ∧
        (scan "A.if IF 1E5@").tokens[3]? = some keyword' ∧
        keyword.tag ≠ .identifier ∧ keyword'.tag = .identifier := by
  have same : SameUpToCase "a.If if 1e5@".toList "A.if IF 1E5@".toList :=
    sameUpToCase_iff.mpr (by decide)
  have tokens : (scan "a.If if 1e5@").tokens =
      [⟨.identifier, ['a'], 0⟩, ⟨.symbol, ['.'], 1⟩, ⟨.identifier, ['I', 'f'], 2⟩,
        ⟨.keyword, ['i', 'f'], 5⟩, ⟨.number, ['1', 'e', '5'], 8⟩] := by cbv
  have tokens' : (scan "A.if IF 1E5@").tokens =
      [⟨.identifier, ['A'], 0⟩, ⟨.symbol, ['.'], 1⟩, ⟨.identifier, ['i', 'f'], 2⟩,
        ⟨.identifier, ['I', 'F'], 5⟩, ⟨.number, ['1', 'E', '5'], 8⟩] := by cbv
  obtain ⟨error, -, alike⟩ := scan_upToCase same
  rw [tokens, tokens'] at alike
  have behindDot := (alike 2 _ _ rfl rfl).tag_eq (.inl (.inl rfl))
  have free : ¬Forced false ['i', 'f'] := by simp [Forced]
  have keyword := (alike 3 _ _ rfl rfl).name_right free (by decide) (by decide)
  refine ⟨same, error, _, _, _, _, ?_, ?_, behindDot, ?_, ?_, keyword⟩
  · rw [tokens]; rfl
  · rw [tokens']; rfl
  · rw [tokens]; rfl
  · rw [tokens']; rfl

end LyqlHighlight.Lexical
