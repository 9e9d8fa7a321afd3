import LyqlHighlight.Proofs.Separation
import LyqlHighlight.Proofs.TokenRow

namespace LyqlHighlight.Lexical

/-!
# What stands in front of an error

A scan that ends with an error has cut its text into pieces up to the fault.  What a piece requires
of the text behind it is only that it does not go on in certain ways, so the pieces stay the same
if the text is cut off at the fault.

* `Lexeme.cut` — a piece does not depend on what is cut off behind it;
* `length_of_firstPiece_eq_error` — a fault concerns some characters, and only such as are there;
* `BreaksOff`, `breaksOff_of_scanFrom` — the pieces in front of an error, and where it is;
* `scan_of_error` — the main result.
-/

/-! ### Texts that are cut off -/

variable {front tail : List Char}

/-- A text that goes on with a fraction does so also in front of more text. -/
theorem OpensFraction.append (h : OpensFraction front) : OpensFraction (front ++ tail) := by
  obtain ⟨d, cs, rfl, digit⟩ := h
  exact ⟨d, cs ++ tail, rfl, digit⟩

/-- A piece of the grammar stays one if the text behind it is cut off. -/
theorem Lexeme.cut {kind : PieceKind} {text : List Char} (h : Lexeme kind text (front ++ tail)) :
    Lexeme kind text front :=
  h.in_front (fun _ hc => .inl (List.mem_head?_append_of_mem_head? hc)) OpensFraction.append

/-! ### The length of a fault -/

theorem length_of_splitExponent_eq_error {text : List Char} {length : Nat}
    (h : splitExponent text = .error length) : 0 < length ∧ length ≤ text.length := by
  fun_cases splitExponent text with
  | case1 => simp [splitExponent] at h
  | case2 c cs hc sign digits hsign hnone =>
    simp only [splitExponent, hc, hsign, hnone, if_true, Except.error.injEq] at h
    have whole := congrArg List.length (splitSign_append cs)
    simp only [hsign, List.length_append] at whole
    rw [List.length_cons]
    omega
  | case3 c cs hc sign digits hsign hsome => simp [splitExponent, hc, hsign, hsome] at h
  | case4 c cs hc => simp [splitExponent, hc] at h

theorem length_of_firstNumber_eq_error {text : List Char} {fault : Fault}
    (h : firstNumber text = .error fault) : 0 < fault.length ∧ fault.length ≤ text.length := by
  unfold firstNumber at h
  dsimp only at h
  split at h
  · contradiction
  · next length hexponent =>
    obtain rfl := Except.error.inj h
    obtain ⟨pos, le⟩ := length_of_splitExponent_eq_error hexponent
    have behindWhole := congrArg List.length (splitDigits_append text)
    have behindFraction := congrArg List.length (splitFraction_append (splitDigits text).2)
    rw [List.length_append] at behindWhole behindFraction
    simp only [Fault.length]
    omega

theorem length_of_firstPaired_eq_error {c partner : Char} {cs : List Char} {fault : Fault}
    (h : firstPaired c partner cs = .error fault) : fault.length = 1 := by
  fun_cases firstPaired c partner cs <;> simp_all [firstPaired] <;> subst h <;> rfl

/-- A fault concerns some characters, and only such as are there. -/
theorem length_of_firstPiece_eq_error {c : Char} {cs : List Char} {fault : Fault}
    (h : firstPiece c cs = .error fault) :
    0 < fault.length ∧ fault.length ≤ (c :: cs).length := by
  have one {fault : Fault} (single : fault.length = 1) :
      0 < fault.length ∧ fault.length ≤ (c :: cs).length := by
    rw [single, List.length_cons]
    omega
  -- One case for each kind of first character, in the order in which they are tried.
  by_cases space : isSpace c = true
  · rw [firstPiece_of_isSpace cs space] at h
    contradiction
  by_cases quote : isQuote c = true
  · rw [firstPiece_of_isQuote cs quote] at h
    unfold firstString at h
    split at h
    · obtain rfl := Except.error.inj h
      exact ⟨Nat.succ_pos _, Nat.le_refl _⟩
    · contradiction
  by_cases digit : c.isDigit = true
  · rw [firstPiece_of_isDigit cs digit] at h
    exact length_of_firstNumber_eq_error h
  by_cases start : isWordStart c = true
  · rw [firstPiece_of_isWordStart cs start] at h
    contradiction
  by_cases slash : c = '/'
  · rw [slash, firstPiece_slash] at h
    contradiction
  cases paired : partner? c with
  | some d =>
    rw [firstPiece_of_partner cs paired] at h
    exact one (length_of_firstPaired_eq_error h)
  | none =>
    by_cases mark : isPunctuation c = true
    · rw [firstPiece_of_isPunctuation cs mark] at h
      contradiction
    · simp only [firstPiece, space, quote, digit, start, slash, paired, mark, Bool.false_eq_true,
        if_false, Except.error.injEq] at h
      obtain rfl := h
      exact one rfl

/-! ### Where a scan breaks off -/

/-- A scan from position `start` on breaks off with an error: the text in front of the fault is a row
    of pieces, whose tokens are reported, and no piece starts where the fault is. -/
inductive BreaksOff (afterDot : Bool) (start : Nat) (text : List Char) (tokens : List Token)
    (e : ScanError) : Prop
  | intro {front : List Char} {parts : List Part} {c : Char} {cs : List Char}
      (whole : text = front ++ c :: cs) (row : Decomposition front parts)
      (place : e.start = start + front.length) (fault : firstPiece c cs = .error e.fault)
      (reported : tokens = tokensOf afterDot start parts) : BreaksOff afterDot start text tokens e

/-- A piece is cut off in front of where a scan breaks off. -/
theorem BreaksOff.cons {afterDot afterDot' : Bool} {start : Nat} {c : Char} {cs : List Char}
    {p : Piece} (cut : firstPiece c cs = .ok p) {tokens tokens' : List Token} {e : ScanError}
    (behind : BreaksOff afterDot' (start + p.text.length) p.rest tokens e)
    (first : ∀ parts, tokens = tokensOf afterDot' (start + p.text.length) parts →
      tokens' = tokensOf afterDot start (⟨p.kind, p.text⟩ :: parts)) :
    BreaksOff afterDot start (c :: cs) tokens' e := by
  obtain @⟨front, parts, d, ds, whole, row, place, fault, reported⟩ := behind
  have lexeme := lexeme_of_firstPiece cut
  rw [whole] at lexeme
  refine ⟨?_, @Decomposition.cons ⟨p.kind, p.text⟩ _ _ lexeme.cut row, ?_, fault,
    first parts reported⟩
  · rw [← text_append_rest cut, whole, List.append_assoc]
  · rw [place, List.length_append, Nat.add_assoc]

/-- A scan that ends with an error breaks off there. -/
theorem breaksOff_of_scanFrom {afterDot : Bool} {start : Nat} {text : List Char} {e : ScanError}
    (h : (scanFrom afterDot start text).error = some e) :
    BreaksOff afterDot start text (scanFrom afterDot start text).tokens e := by
  -- The recursion of the scan: each piece that is cut off comes in front of those found before.
  fun_induction scanFrom afterDot start text with
  | case1 => contradiction
  | case2 afterDot start c cs fault broken =>
    obtain rfl := Option.some.inj h
    exact .intro rfl .nil rfl broken rfl
  | case3 afterDot start c cs p cut blank ih =>
    refine (ih h).cons cut fun parts reported => ?_
    rw [reported, tokensOf, ← tokenTag?_eq, blank]
  | case4 afterDot start c cs p cut tag named ih =>
    refine (ih h).cons cut fun parts reported => ?_
    rw [tokensOf, ← tokenTag?_eq, named, ← reported]
    rfl

/-- **Errors leave what is in front of them alone.**  The fault concerns some characters of the
    text.  The text in front of it is scanned without an error, and its tokens are those that were
    reported before the error; all of them stop where the fault starts at the latest. -/
theorem scan_of_error {text : String} {e : ScanError} (h : (scan text).error = some e) :
    e.start < e.stop ∧ e.stop ≤ text.length ∧
      scan (String.ofList (text.toList.take e.start)) = ⟨(scan text).tokens, none⟩ ∧
        ∀ t ∈ (scan text).tokens, t.stop ≤ e.start := by
  obtain ⟨whole, row, place, fault, reported⟩ := breaksOff_of_scanFrom h
  rw [Nat.zero_add] at place
  obtain ⟨some, inside⟩ := length_of_firstPiece_eq_error fault
  have length := congrArg List.length whole
  rw [String.length_toList, List.length_append] at length
  have stop : e.stop = e.start + e.fault.length := rfl
  refine ⟨by omega, by omega, ?_, fun t ht => ?_⟩
  · rw [scan, String.toList_ofList, whole, place, List.take_left, row.scanFrom_eq, ← reported]
    rfl
  · have within := (tokensOf_within (reported ▸ ht)).2
    rw [row.width_eq] at within
    omega

/-- A number breaks off inside its exponent, behind a symbol that another sign would have
    completed. -/
theorem scan_of_error_exponent :
    ∃ e, (scan "a.if<1.5e+=").error = some e ∧ e.start = 5 ∧ e.stop = 10 ∧
      scan "a.if<" = ⟨(scan "a.if<1.5e+=").tokens, none⟩ := by
  have error : (scan "a.if<1.5e+=").error = some ⟨.malformed 5, 5⟩ := by cbv
  exact ⟨_, error, rfl, rfl, (scan_of_error error).2.2.1⟩

end LyqlHighlight.Lexical
