import LyqlHighlight.Proofs.LetterCase
import LyqlHighlight.Proofs.Measures

namespace LyqlHighlight.Lexical

/-!
# The spelling of query keywords

A word is a keyword of queries if its capitals are one.  There are letters beyond ASCII whose
capitals are written in ASCII, some of them with two letters, so the capitals of a word do not tell
whether the word itself is spelled like the keyword.  It is, up to the case of its letters, exactly
if none of these letters occurs in it.

* `foreignLetters` — the letters beyond ASCII that stand for letters of keywords;
* `isAlpha_or_mem_foreignLetters` — what a word is made of if its capitals are a keyword;
* `sameUpToCase_capitals` — a word in ASCII letters is spelled like its capitals;
* `Spells` — how a word is spelled whose capitals are a keyword, and `spells_of_capitals`;
* `scan_sqlKeyword` — which tokens are keywords of queries, and how they are spelled.
-/

/-- The letters beyond ASCII whose capitals occur in keywords of queries. -/
def foreignLetters : List Char :=
  ['ß', 'ı', 'ſ', 'ﬀ', 'ﬅ', 'ﬆ']

theorem isAlpha_of_mem_foreignLetters {c : Char} (h : c ∈ foreignLetters) : c.isAlpha = false := by
  have none : ∀ c ∈ foreignLetters, c.isAlpha = false := by simp [foreignLetters]
  exact none c h

/-- No piece of a text starts with such a letter. -/
theorem firstPiece_of_mem_foreignLetters {c : Char} (h : c ∈ foreignLetters) (cs : List Char) :
    firstPiece c cs = .error (.unexpected c) := by
  simp only [foreignLetters, List.mem_cons, List.not_mem_nil, or_false] at h
  rcases h with rfl | rfl | rfl | rfl | rfl | rfl <;> rfl

/-! ### Capitals -/

theorem capitalsOf_of_isAlpha {c : Char} (h : c.isAlpha = true) :
    Text.capitalsOf c = [c.toUpper] :=
  Text.capitalsOf_of_ascii (toNat_lt_of_isAlpha h)

/-- A character beyond ASCII with other capitals than itself is one of the table. -/
theorem capitalsOf_of_not_ascii {c : Char} (h : ¬c.toNat < 0x80) :
    Text.capitalsOf c = [c] ∨ (c.toNat, Text.capitalsOf c) ∈ Text.capitalForms := by
  rw [Text.capitalsOf, if_neg h]
  cases found : Text.capitalForms.lookup c.toNat with
  | none => exact .inl rfl
  | some form =>
    obtain ⟨front, back, whole, -⟩ := List.lookup_eq_some_iff.mp found
    refine .inr ?_
    rw [whole]
    exact List.mem_append_right _ List.mem_cons_self

theorem capitalsOf_ne_nil (c : Char) : Text.capitalsOf c ≠ [] := by
  by_cases ascii : c.toNat < 0x80
  · rw [Text.capitalsOf_of_ascii ascii]
    exact List.cons_ne_nil _ _
  · have forms : ∀ form ∈ Text.capitalForms, form.2 ≠ [] := by decide
    rcases capitalsOf_of_not_ascii ascii with itself | form
    · rw [itself]
      exact List.cons_ne_nil _ _
    · exact forms _ form

/-- The capitals are a size of words. -/
theorem measure_capitals : Text.Measure (fun word => (Text.capitals word).length)
    fun c => (Text.capitalsOf c).length where
  nil := rfl
  cons c word := by
    show (Text.capitals (c :: word)).length = _
    rw [Text.capitals, List.flatMap_cons, List.length_append]
    rfl
  width_pos c := List.length_pos_iff.mpr (capitalsOf_ne_nil c)

/-- The capitals of a letter of a word stand in those of the word. -/
theorem capitalsOf_isInfix {c : Char} {word : List Char} (h : c ∈ word) :
    Text.capitalsOf c <:+: Text.capitals word := by
  obtain ⟨front, back, rfl⟩ := List.append_of_mem h
  refine ⟨Text.capitals front, Text.capitals back, ?_⟩
  rw [Text.capitals_append, List.append_assoc]
  rfl

/-- **In ASCII.** A word in ASCII letters is spelled like its capitals, up to the case. -/
theorem sameUpToCase_capitals {word : List Char} (letters : ∀ c ∈ word, c.isAlpha = true) :
    SameUpToCase word (Text.capitals word) := by
  induction word with
  | nil => exact .nil
  | cons c word ih =>
    obtain ⟨letter, letters⟩ := List.forall_mem_cons.mp letters
    have whole : Text.capitals (c :: word) = c.toUpper :: Text.capitals word := by
      rw [Text.capitals, List.flatMap_cons, capitalsOf_of_isAlpha letter]
      rfl
    rw [whole]
    exact .cons (Char.toLower_toUpper_eq_toLower c).symm (ih letters)

/-! ### Keywords -/

section Keywords

variable {entry : String} (known : entry ∈ sqlKeywords)
include known

theorem isUpper_of_mem {c : Char} (h : c ∈ entry.toList) : c.isUpper = true := by
  have all : ∀ entry ∈ sqlKeywords, ∀ c ∈ entry.toList, c.isUpper = true := by simp [sqlKeywords]
  exact all entry known c h

/-- Of the letters beyond ASCII only some have capitals that occur in a keyword. -/
theorem mem_foreignLetters_of_isInfix {c : Char} {form : List Char}
    (h : (c.toNat, form) ∈ Text.capitalForms) (inside : form <:+: entry.toList) :
    c ∈ foreignLetters := by
  have all : ∀ entry ∈ sqlKeywords, ∀ form ∈ Text.capitalForms, form.2 <:+: entry.toList →
      form.1 ∈ foreignLetters.map Char.toNat := by decide +kernel
  obtain ⟨d, hd, same⟩ := List.mem_map.mp (all entry known (c.toNat, form) h inside)
  rwa [← Char.toNat_inj.mp same]

/-- **Letters.** A word whose capitals are a keyword is made of ASCII letters and of the letters that
    stand for some. -/
theorem isAlpha_or_mem_foreignLetters {word : List Char}
    (capitals : Text.capitals word = entry.toList) {c : Char} (h : c ∈ word) :
    c.isAlpha = true ∨ c ∈ foreignLetters := by
  have inside := capitalsOf_isInfix h
  rw [capitals] at inside
  have upper : ∀ d ∈ Text.capitalsOf c, d.isUpper = true := fun d hd =>
    isUpper_of_mem known (inside.subset hd)
  by_cases ascii : c.toNat < 0x80
  · rw [Text.capitalsOf_of_ascii ascii] at upper
    have letter := upper c.toUpper List.mem_cons_self
    rw [← Char.isAlpha_toUpper_eq_isAlpha, Char.isAlpha, letter]
    exact .inl rfl
  · rcases capitalsOf_of_not_ascii ascii with itself | form
    · -- A character that stands for itself is no ASCII letter.
      rw [itself] at upper
      have letter : c.isAlpha = true := by
        rw [Char.isAlpha, upper c List.mem_cons_self]
        rfl
      exact absurd (toNat_lt_of_isAlpha letter) ascii
    · exact .inr (mem_foreignLetters_of_isInfix known form inside)

/-- What is spelled like a keyword up to the case has ASCII letters only. -/
theorem isAlpha_of_sameUpToCase {word : List Char} (same : SameUpToCase word entry.toList) {c : Char}
    (h : c ∈ word) : c.isAlpha = true := by
  have folded := sameUpToCase_iff.mp same
  have lower : c.toLower ∈ foldCase entry.toList := by
    rw [← folded]
    exact List.mem_map_of_mem h
  obtain ⟨d, hd, lower⟩ := List.mem_map.mp lower
  rw [← Char.isAlpha_toLower_eq_isAlpha, ← lower, Char.isAlpha_toLower_eq_isAlpha, Char.isAlpha,
    isUpper_of_mem known hd]
  rfl

end Keywords

/-- How a word is spelled whose capitals are a keyword of queries. -/
structure Spells (word : List Char) (entry : String) : Prop where
  /-- The capitals are the keyword. -/
  capitals_eq : Text.capitals word = entry.toList
  /-- The word is made of ASCII letters and of those that stand for some. -/
  letters : ∀ c ∈ word, c.isAlpha = true ∨ c ∈ foreignLetters
  /-- It has no more letters than the keyword. -/
  length_le : word.length ≤ entry.length
  /-- It has as many if none of them stands for two. -/
  length_eq_iff : word.length = entry.length ↔ ∀ c ∈ word, (Text.capitalsOf c).length = 1
  /-- Without letters beyond ASCII it is the keyword, up to the case. -/
  plain : (∀ c ∈ word, c ∉ foreignLetters) → (∀ c ∈ word, c.isAlpha = true) ∧
    SameUpToCase word entry.toList ∧ word.length = entry.length
  /-- With one of them it has a letter beyond ASCII and is no keyword at all, up to the case. -/
  foreign : (∃ c ∈ word, c ∈ foreignLetters) → ¬(∀ c ∈ word, c.isAlpha = true) ∧
    ∀ other ∈ sqlKeywords, ¬SameUpToCase word other.toList

theorem spells_of_capitals {word : List Char} {entry : String} (known : entry ∈ sqlKeywords)
    (capitals : Text.capitals word = entry.toList) : Spells word entry := by
  have letters : ∀ c ∈ word, c.isAlpha = true ∨ c ∈ foreignLetters := fun c hc =>
    isAlpha_or_mem_foreignLetters known capitals hc
  have size : (Text.capitals word).length = entry.length := by
    rw [capitals, String.length_toList]
  refine ⟨capitals, letters, ?_, ?_, fun plain => ?_, fun ⟨c, hc, foreign⟩ => ?_⟩
  · rw [← size]
    exact measure_capitals.length_le_size word
  · rw [← measure_capitals.size_eq_length_iff, ← size, eq_comm]
  · have ascii : ∀ c ∈ word, c.isAlpha = true := fun c hc => (letters c hc).resolve_right (plain c hc)
    have same := sameUpToCase_capitals ascii
    rw [capitals] at same
    refine ⟨ascii, same, ?_⟩
    rw [List.Forall₂.length_eq same, String.length_toList]
  · have other := isAlpha_of_mem_foreignLetters foreign
    refine ⟨fun ascii => ?_, fun keyword known same => ?_⟩
    · rw [ascii c hc] at other
      contradiction
    · rw [isAlpha_of_sameUpToCase known same hc] at other
      contradiction

/-! ### Tokens -/

/-- The free words that are keywords of queries are those whose capitals are one. -/
theorem freeWordTag_eq_sqlKeyword_iff {word : List Char} :
    freeWordTag word = .sqlKeyword ↔ ∃ entry ∈ sqlKeywords, Text.capitals word = entry.toList := by
  have capitals : String.ofList (Text.capitals word) ∈ sqlKeywords ↔
      ∃ entry ∈ sqlKeywords, Text.capitals word = entry.toList := by
    constructor
    · intro known
      exact ⟨_, known, String.toList_ofList.symm⟩
    · rintro ⟨entry, known, same⟩
      rwa [same, String.ofList_toList]
  by_cases reserved : Reserved word
  · have other : freeWordTag word ≠ .sqlKeyword :=
      Reserved.of_forall (p := fun word => freeWordTag word ≠ .sqlKeyword) (by decide) reserved
    rw [← capitals]
    exact iff_of_false other reserved.capitals_notMem
  · rw [freeWordTag_of_not_reserved reserved, ← capitals]
    by_cases known : String.ofList (Text.capitals word) ∈ sqlKeywords
    · simp [known]
    · simp [known]

/-- A piece whose capitals are a keyword is a word. -/
theorem Lexeme.kind_of_capitals {kind : PieceKind} {text rest : List Char}
    (lexeme : Lexeme kind text rest) {entry : String} (known : entry ∈ sqlKeywords)
    (capitals : Text.capitals text = entry.toList) : kind = .word := by
  obtain ⟨c, cs, rfl⟩ := List.exists_cons_of_ne_nil lexeme.ne_nil
  rw [lexeme.kind_eq_word_iff]
  rcases isAlpha_or_mem_foreignLetters known capitals List.mem_cons_self with letter | foreign
  · simp [isWordStart, letter]
  · have cut := firstPiece_of_lexeme lexeme (List.cons_append ..)
    rw [firstPiece_of_mem_foreignLetters foreign] at cut
    contradiction

/-- The token of a piece is a keyword of queries exactly if nothing forces it to be a name and its
    capitals are one. -/
theorem tokenTag?_eq_sqlKeyword_iff {c : Char} {cs : List Char} {p : Piece} {afterDot : Bool}
    {tag : TokenTag} (cut : firstPiece c cs = .ok p) (named : tokenTag? afterDot p = some tag) :
    tag = .sqlKeyword ↔
      ¬Forced afterDot p.text ∧ ∃ entry ∈ sqlKeywords, Text.capitals p.text = entry.toList := by
  have lexeme := lexeme_of_firstPiece cut
  obtain ⟨kind, text, rest⟩ := p
  by_cases word : kind = .word
  · subst word
    obtain rfl := Option.some.inj named
    by_cases forced : Forced afterDot text
    · rw [wordTag_of_forced forced]
      simp [forced]
    · rw [wordTag_of_not_forced forced, freeWordTag_eq_sqlKeyword_iff]
      simp [forced]
  · -- The other kinds have classes of their own, and other characters.
    have other : ¬∃ entry ∈ sqlKeywords, Text.capitals text = entry.toList := by
      rintro ⟨entry, known, capitals⟩
      exact word (lexeme.kind_of_capitals known capitals)
    have tags : tag ≠ .sqlKeyword := by
      rintro rfl
      cases kind <;> simp_all [tokenTag?]
    exact iff_of_false tags fun h => other h.2

/-- The same for each token of a scan, where a dot may stand in front of the first one. -/
theorem scanFrom_sqlKeyword {afterDot : Bool} {start i : Nat} {text : List Char} {t : Token}
    (h : (scanFrom afterDot start text).tokens[i]? = some t) :
    t.tag = .sqlKeyword ↔
      ¬Forced (dotBehind afterDot ((scanFrom afterDot start text).tokens.take i)) t.lexeme ∧
        ∃ entry ∈ sqlKeywords, Text.capitals t.lexeme = entry.toList := by
  fun_induction scanFrom afterDot start text generalizing i with
  | case1 => cases h
  | case2 => cases h
  | case3 afterDot start c cs p cut blank ih => exact ih h
  | case4 afterDot start c cs p cut tag named ih =>
    cases i with
    | zero =>
      obtain rfl := Option.some.inj h
      exact tokenTag?_eq_sqlKeyword_iff cut named
    | succ i =>
      have later := ih h
      show t.tag = .sqlKeyword ↔ ¬Forced (dotBehind afterDot (_ :: _)) t.lexeme ∧ _
      rw [dotBehind_cons]
      exact later

/-- **Keywords of queries.**  A token is a keyword of queries exactly if nothing forces it to be a
    name and its capitals are one.  Then it is made of ASCII letters and of some letters beyond
    ASCII that stand for one or two of them.  If there is none of the latter, it is spelled like the
    keyword in letters of either case; if there is one, it is spelled like no keyword. -/
theorem scan_sqlKeyword {text : String} {i : Nat} {t : Token}
    (h : (scan text).tokens[i]? = some t) :
    (t.tag = .sqlKeyword ↔
      ¬Forced (dotBehind false ((scan text).tokens.take i)) t.lexeme ∧
        ∃ entry ∈ sqlKeywords, Text.capitals t.lexeme = entry.toList) ∧
    (t.tag = .sqlKeyword → ∃ entry ∈ sqlKeywords, Spells t.lexeme entry) := by
  have exact := scanFrom_sqlKeyword h
  refine ⟨exact, fun keyword => ?_⟩
  obtain ⟨-, entry, known, capitals⟩ := exact.mp keyword
  exact ⟨entry, known, spells_of_capitals known capitals⟩

/-- A keyword in letters of both cases. -/
theorem scan_sqlKeyword_mixed :
    ∃ t : Token, (scan "x.on = Select").tokens[4]? = some t ∧ t.tag = .sqlKeyword ∧
      ∃ entry ∈ sqlKeywords, (∀ c ∈ t.lexeme, c.isAlpha = true) ∧
        SameUpToCase t.lexeme entry.toList ∧ t.lexeme.length = entry.length := by
  have tokens : (scan "x.on = Select").tokens =
      [⟨.identifier, ['x'], 0⟩, ⟨.symbol, ['.'], 1⟩, ⟨.identifier, ['o', 'n'], 2⟩,
        ⟨.symbol, ['='], 5⟩, ⟨.sqlKeyword, ['S', 'e', 'l', 'e', 'c', 't'], 7⟩] := by cbv
  have token : (scan "x.on = Select").tokens[4]? =
      some ⟨.sqlKeyword, ['S', 'e', 'l', 'e', 'c', 't'], 7⟩ := by rw [tokens]; rfl
  obtain ⟨entry, known, spells⟩ := (scan_sqlKeyword token).2 rfl
  exact ⟨_, token, rfl, entry, known, spells.plain (by simp [foreignLetters])⟩

/-- The text is taken in, but one keyword in it has a letter beyond ASCII, and the other one has
    fewer letters than each keyword with its capitals. -/
theorem not_spelled_of_foreign :
    (scan "lıke croß").error = none ∧
      ∃ t ∈ (scan "lıke croß").tokens, ∃ u ∈ (scan "lıke croß").tokens,
        t.tag = .sqlKeyword ∧ u.tag = .sqlKeyword ∧ ¬(∀ c ∈ t.lexeme, c.isAlpha = true) ∧
        (∀ entry ∈ sqlKeywords, ¬SameUpToCase t.lexeme entry.toList) ∧
        ∀ entry ∈ sqlKeywords, Text.capitals u.lexeme = entry.toList →
          u.lexeme.length < entry.length := by
  have whole : scan "lıke croß" =
      ⟨[⟨.sqlKeyword, ['l', 'ı', 'k', 'e'], 0⟩, ⟨.sqlKeyword, ['c', 'r', 'o', 'ß'], 5⟩],
        none⟩ := by decide +kernel
  rw [whole]
  refine ⟨rfl, _, List.mem_cons_self, _, List.mem_cons_of_mem _ List.mem_cons_self, rfl, rfl,
    by simp, fun entry known same => ?_, by decide +kernel⟩
  have letter := isAlpha_of_sameUpToCase known same (List.mem_cons_of_mem _ List.mem_cons_self)
  simp at letter

end LyqlHighlight.Lexical
