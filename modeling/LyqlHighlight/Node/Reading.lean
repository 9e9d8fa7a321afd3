import LyqlHighlight.Value

namespace LyqlHighlight

/-!
# Reading nodes from loosely typed values

A node is written as a mapping with a tag, under `tag` or under `name`, a span of two integers and
a sequence of children.  Span and children may be missing, and a node that is typed already stands
for itself.

* `ReadError` — why a value is no node;
* `Value.items` — the members of a value that stands for children;
* `Span.ofValue` — the span that a value stands for;
* `Node.ofValue` — the node that a value stands for, if it nests no deeper than allowed.
-/

/-- Why a value could not be read as a node. -/
inductive ReadError where
  /-- The value is neither a mapping nor a node. -/
  | notMapping (v : Value)
  /-- The mapping has no text as its tag. -/
  | noTag (v : Value)
  /-- The mapping with this tag is nested too deeply. -/
  | tooDeep (tag : String)
  /-- The children are a value without members. -/
  | noItems (v : Value)
  /-- The children are a span without a size. -/
  | size (e : SizeError)
  /-- The span is not a mapping. -/
  | spanNotMapping (v : Value)
  /-- A bound of the span is missing or stands for no integer. -/
  | spanUnusable (v : Value)
  /-- A bound of the span is infinite. -/
  | spanInfinite
  /-- The span stops before it starts. -/
  | spanReversed (start stop : Int)
deriving Repr

/-- The wording of the error. -/
def ReadError.message : ReadError → String
  | notMapping v => "Expected a mapping node, got " ++ v.kind
  | noTag v => "Node has no tag: " ++ v.text
  | tooDeep tag => "AST is nested too deeply at " ++ Text.quoted tag
  | noItems v => "'" ++ v.kind ++ "' object is not iterable"
  | size e => e.message
  | spanNotMapping v => "Span must be a mapping, got " ++ v.kind
  | spanUnusable v => "Span is missing a usable start/end: " ++ v.text
  | spanInfinite => "cannot convert float infinity to integer"
  | spanReversed start stop =>
    "Span ends before it starts: " ++ toString start ++ ".." ++ toString stop

/-- The members of a value: those of a sequence, the characters of a text, the numbers of the
    bytes and the keys of a mapping.  A value that counts as false has none. -/
def Value.items (v : Value) : Except ReadError (List Value) := do
  unless ← v.isTrue.mapError .size do return []
  match v with
  | .list items => return items
  | .tuple items => return items
  | .str s => return s.toList.map fun c => .str (String.singleton c)
  | .bytes bs => return bs.map fun b => .int b.toNat
  | .mapping fields => return fields.map fun (key, _) => .str key
  | v => throw (.noItems v)

/-- One bound of a written span. -/
def Span.boundOfValue (v : Value) (key : String) : Except ReadError Int :=
  match v.field? key with
  | none => .error (.spanUnusable v)
  | some bound =>
    match bound.integer with
    | .ok n => .ok n
    | .error .unusable => .error (.spanUnusable v)
    | .error .infinite => .error .spanInfinite

/-- The span that a value stands for.  A span that is typed already stands for itself, and only
    a written one has to be in order. -/
def Span.ofValue : Value → Except ReadError Span
  | .span s => .ok s
  | .mapping fields => do
    let start ← boundOfValue (.mapping fields) "start"
    let stop ← boundOfValue (.mapping fields) "end"
    if stop < start then throw (.spanReversed start stop)
    return ⟨start, stop⟩
  | v => .error (.spanNotMapping v)

namespace Node

/-- The tag of a written node. -/
def tagOfFields (fields : List (String × Value)) : Except ReadError String :=
  match fields.lookup "tag" <|> fields.lookup "name" with
  | some (.str tag) => .ok tag
  | _ => .error (.noTag (.mapping fields))

/-- The node that a value stands for, if it nests at most `depth` mappings. -/
def read : Nat → Value → Except ReadError Node
  | _, .node n => .ok n
  | depth, .mapping fields => do
    let tag ← tagOfFields fields
    match depth with
    | 0 => throw (.tooDeep tag)
    | depth + 1 =>
      let items ← ((fields.lookup "children").getD .none).items
      let children ← items.mapM (read depth)
      match (fields.lookup "span").getD .none with
      | .none => return detached tag children
      | raw => return spanned tag (← Span.ofValue raw) children
  | _, v => .error (.notMapping v)

/-- The node that a value stands for, with an allowance of levels that may be any integer. -/
def ofValue (v : Value) (depth : Int := defaultDepth) : Except ReadError Node :=
  read depth.toNat v

end Node

end LyqlHighlight
