import LyqlHighlight.Node
import LyqlHighlight.Number.Shortest
import LyqlHighlight.Text.Numeral

namespace LyqlHighlight

/-!
# Loosely typed values

What a foreign parser may hand back, and what the settings of an editor are made of: scalars,
sequences and mappings with text keys, and spans and nodes that are typed already.

* `Value` — the values;
* `Value.kind` — the name of the kind of a value in messages;
* `Value.text` — the text that shows a value in a message;
* `Value.isTrue`, `Value.holds` — whether a value counts as true where a flag is expected;
* `Value.integer` — the integer that a value stands for.
-/

/-- A loosely typed value.  The keys of a mapping are distinct and in order of insertion. -/
inductive Value where
  /-- No value. -/
  | none
  /-- A truth value. -/
  | bool (b : Bool)
  /-- An integer. -/
  | int (n : Int)
  /-- A floating point number. -/
  | float (x : Binary64)
  /-- A text. -/
  | str (s : String)
  /-- A string of bytes. -/
  | bytes (bs : List UInt8)
  /-- A list. -/
  | list (items : List Value)
  /-- A tuple. -/
  | tuple (items : List Value)
  /-- A mapping. -/
  | mapping (fields : List (String × Value))
  /-- A span. -/
  | span (s : Span)
  /-- A syntax node. -/
  | node (n : Node)
deriving Repr

/-- Why a value stands for no integer. -/
inductive IntegerError where
  /-- The value is no number and no numeral. -/
  | unusable
  /-- The value is infinite. -/
  | infinite
deriving DecidableEq, Repr

namespace Value

/-- The name of the kind of a value in messages. -/
def kind : Value → String
  | none => "NoneType"
  | bool _ => "bool"
  | int _ => "int"
  | float _ => "float"
  | str _ => "str"
  | bytes _ => "bytes"
  | list _ => "list"
  | tuple _ => "tuple"
  | mapping _ => "dict"
  | span _ => "Span"
  | node (.spanned _ _ _) => "AstNode"
  | node (.detached _ _) => "DetachedNode"

mutual

/-- The text that shows a value in a message. -/
def text : Value → String
  | none => "None"
  | bool b => if b then "True" else "False"
  | int n => toString n
  | float x => x.text
  | str s => Text.quoted s
  | bytes bs => Text.quotedBytes bs
  | list items => "[" ++ ", ".intercalate (texts items) ++ "]"
  | tuple items => tupleText (texts items)
  | mapping fields => "\x7b" ++ ", ".intercalate (fieldTexts fields) ++ "\x7d"
  | span s => s.text
  | node n => n.text

/-- The texts of several values. -/
def texts : List Value → List String
  | [] => []
  | v :: vs => v.text :: texts vs

/-- The texts of the fields of a mapping. -/
def fieldTexts : List (String × Value) → List String
  | [] => []
  | (key, v) :: fields => (Text.quoted key ++ ": " ++ v.text) :: fieldTexts fields

end

/-- Whether a value counts as true: zero and empty values and `none` do not.  A span counts by its
    size, which it may not have. -/
def isTrue : Value → Except SizeError Bool
  | none => .ok false
  | bool b => .ok b
  | int n => .ok (n != 0)
  | float x => .ok !x.isZero
  | str s => .ok !s.isEmpty
  | bytes bs => .ok !bs.isEmpty
  | list items => .ok !items.isEmpty
  | tuple items => .ok !items.isEmpty
  | mapping fields => .ok !fields.isEmpty
  | span s => s.size.map (· != 0)
  | node _ => .ok true

/-- Whether a value sets a flag.  A value that cannot be judged sets none. -/
def holds (v : Value) : Bool :=
  match v.isTrue with
  | .ok b => b
  | .error _ => false

/-- The integer that a value stands for: a number without its fractional part, or a numeral. -/
def integer : Value → Except IntegerError Int
  | bool b => .ok (if b then 1 else 0)
  | int n => .ok n
  | float x =>
    match x.truncate? with
    | some n => .ok n
    | Option.none => .error (if x = .nan then .unusable else .infinite)
  | str s => (Text.integer? s.toList).elim (.error .unusable) .ok
  | bytes bs => (Text.integerOfBytes? bs).elim (.error .unusable) .ok
  | _ => .error .unusable

/-- The value under a key of a mapping. -/
def field? : Value → String → Option Value
  | mapping fields, key => fields.lookup key
  | _, _ => Option.none

end Value

end LyqlHighlight
