namespace LyqlHighlight.Text

/-!
# Offsets in other units

Positions count characters.  A document counts 16-bit units, of which a character beyond
`U+FFFF` takes two; a syntax tree counts the bytes of the UTF-8 form.

* `units` — the number of 16-bit units of a text;
* `unitOffset` — the unit at which a character starts;
* `encode` — the bytes of a text;
* `charOffset` — the character that starts at a byte;
* `OffsetError` — why an offset has no counterpart.
-/

/-- Why an offset has no counterpart. -/
inductive OffsetError where
  /-- The text has no such position. -/
  | outOfRange
  /-- The offset does not even fit a signed word. -/
  | tooLarge
  /-- No character starts at this byte. -/
  | insideCharacter (byte : Int)
deriving DecidableEq, Repr

namespace OffsetError

/-- The wording of the error. -/
def message : OffsetError → String
  | outOfRange => "list index out of range"
  | tooLarge => "cannot fit 'int' into an index-sized integer"
  | insideCharacter byte => toString byte

end OffsetError

/-- The bound on words, two to the 63rd: sizes and positions are below it. -/
def wordBound : Int := 9223372036854775808

/-- The running sums of a list, from zero on. -/
def runningSums (widths : List Nat) : List Nat :=
  go 0 widths
where
  /-- The running sums from `total` on. -/
  go (total : Nat) : List Nat → List Nat
    | [] => [total]
    | w :: ws => total :: go (total + w) ws

/-! ### 16-bit units -/

/-- The number of 16-bit units of a character. -/
def unitWidth (c : Char) : Nat :=
  if c.toNat < 0x10000 then 1 else 2

/-- The number of 16-bit units of a text. -/
def units : List Char → Nat
  | [] => 0
  | c :: text => unitWidth c + units text

@[simp] theorem units_nil : units [] = 0 := rfl

@[simp] theorem units_cons (c : Char) (text : List Char) :
    units (c :: text) = unitWidth c + units text := rfl

/-- The entry of a table at a position; a negative position counts from the end. -/
def entryAt (table : List Nat) (i : Int) : Except OffsetError Int :=
  let place := if i < 0 then i + table.length else i
  match if place < 0 then none else table[place.toNat]? with
  | some n => .ok n
  | none => .error (if i < -wordBound ∨ wordBound ≤ i then .tooLarge else .outOfRange)

/-- The 16-bit unit at which the character at position `i` starts.  In a text whose characters
    take one unit each this is `i`, whatever `i` is; otherwise `i` is looked up among the positions
    of the text, a negative one from its end. -/
def unitOffset (text : List Char) (i : Int) : Except OffsetError Int :=
  if units text = text.length then .ok i
  else entryAt (runningSums (text.map unitWidth)) i

/-! ### Bytes -/

/-- The UTF-8 form of a text. -/
def encode (text : List Char) : List UInt8 :=
  text.flatMap String.utf8EncodeChar

/-- The character that starts at byte `b`.  In a text of ASCII characters this is `b`, whatever
    `b` is; otherwise `b` has to be the first byte of a character, or the end of the text. -/
def charOffset (text : List Char) (b : Int) : Except OffsetError Int :=
  if (encode text).length = text.length then .ok b
  else
    match (runningSums (text.map Char.utf8Size)).idxOf? b.toNat with
    | some i => if b < 0 then .error (.insideCharacter b) else .ok i
    | none => .error (.insideCharacter b)

end LyqlHighlight.Text
