import LyqlHighlight.Text.Case.Table

namespace LyqlHighlight.Text

/-!
# Lower-case form

The full lower-case form of a text.  It differs from a map over characters in two places: a
capital I with a dot becomes two characters, and a capital sigma has another form at the end of a
word.

* `lowerChar` — the form of a character by itself;
* `adjoinsLetter` — whether a letter stands next to a place;
* `lower` — the form of a text.
-/

/-- The lower-case form of a character by itself. -/
def lowerChar (c : Char) : List Char :=
  if c.toNat = 0x130 then ['i', Char.ofNat 0x307]
  else
    match lowerRuns.find? fun (first, last, step, _) =>
      first ≤ c.toNat && c.toNat ≤ last && (c.toNat - first) % step == 0 with
    | some (_, _, _, shift) => [Char.ofNat (c.toNat + shift).toNat]
    | none => [c]

/-- Whether a run of characters, read away from a place, comes to a cased letter, the
    case-ignorable characters passed over. -/
def adjoinsLetter (run : List Char) : Bool :=
  match run.dropWhile fun c => caseIgnorableRanges.has c.toNat with
  | [] => false
  | c :: _ => casedRanges.has c.toNat

/-- The capital sigma. -/
def capitalSigma : Char := Char.ofNat 0x3A3

/-- The lower-case sigma at the end of a word. -/
def finalSigma : Char := Char.ofNat 0x3C2

/-- The lower-case form of the characters that follow `before`, which holds what precedes them
    with the nearest character first. -/
def lowerAfter (before : List Char) : List Char → List Char
  | [] => []
  | c :: cs =>
    (if c = capitalSigma ∧ adjoinsLetter before ∧ ¬ adjoinsLetter cs then [finalSigma]
      else lowerChar c) ++ lowerAfter (c :: before) cs

/-- The lower-case form of a text. -/
def lower (text : String) : String :=
  String.ofList (lowerAfter [] text.toList)

end LyqlHighlight.Text
