import LyqlHighlight.Lexical.Piece
import LyqlHighlight.Lexical.Word
import LyqlHighlight.Text.Quoted

namespace LyqlHighlight.Lexical

/-!
# Scanning

A scan cuts a text into its pieces and reports those that are no space and no comment as tokens.
Where the text starts with no piece the scan ends with an error, and the tokens in front stand.

* `Token` — a piece of text with its class and its place;
* `ScanError` — the place of a fault;
* `Scan` — the tokens of a text, and the error that ended the scan, if one did;
* `scan` — the scan of a text.
-/

/-- A token of a text. -/
structure Token where
  /-- The class of the token. -/
  tag : TokenTag
  /-- The characters of the token. -/
  lexeme : List Char
  /-- The position of the first character. -/
  start : Nat
deriving DecidableEq, Repr

/-- The position behind a token. -/
def Token.stop (t : Token) : Nat :=
  t.start + t.lexeme.length

/-- A fault and the position where it starts. -/
structure ScanError where
  /-- What is wrong. -/
  fault : Fault
  /-- Where the piece would have had to start. -/
  start : Nat
deriving DecidableEq, Repr

namespace ScanError

/-- The position behind the characters at fault. -/
def stop (e : ScanError) : Nat :=
  e.start + e.fault.length

/-- The position up to which the text had been taken in.  A number is taken in character by
    character; nothing else is before it is complete. -/
def reached (e : ScanError) : Nat :=
  match e.fault with
  | .malformed _ => e.stop
  | _ => e.start

/-- The wording of the error. -/
def message (e : ScanError) : String :=
  let cause := match e.fault with
    | .unexpected c => "Unexpected character " ++ Text.quoted (String.singleton c)
    | .unterminated _ => "Unterminated string"
    | .malformed _ => "Malformed number literal"
  cause ++ " at " ++ toString e.start

end ScanError

/-- The outcome of a scan. -/
structure Scan where
  /-- The tokens in front of the error, or all of them. -/
  tokens : List Token
  /-- The error that ended the scan. -/
  error : Option ScanError
deriving DecidableEq, Repr

/-- A scan with a token in front. -/
def Scan.cons (t : Token) (s : Scan) : Scan :=
  { s with tokens := t :: s.tokens }

/-- The class of a piece that is reported as a token. -/
def tokenTag? (afterDot : Bool) (p : Piece) : Option TokenTag :=
  match p.kind with
  | .space | .comment => none
  | .string => some .string
  | .number => some .number
  | .word => some (wordTag afterDot p.text)
  | .symbol => some .symbol

/-- The scan of the text from position `start` on, where `afterDot` says whether the last token in
    front of it is a dot. -/
def scanFrom (afterDot : Bool) (start : Nat) : List Char → Scan
  | [] => ⟨[], none⟩
  | c :: cs =>
    match _ : firstPiece c cs with
    | .error fault => ⟨[], some ⟨fault, start⟩⟩
    | .ok p =>
      match tokenTag? afterDot p with
      | none => scanFrom afterDot (start + p.text.length) p.rest
      | some tag =>
        (scanFrom (p.text = ['.']) (start + p.text.length) p.rest).cons ⟨tag, p.text, start⟩
termination_by text => text.length
decreasing_by all_goals exact length_rest_lt ‹_›

/-- The scan of a text. -/
def scan (text : String) : Scan :=
  scanFrom false 0 text.toList

end LyqlHighlight.Lexical
