import LyqlHighlight.Table
import LyqlHighlight.Text.Quoted

namespace LyqlHighlight

/-!
# Options

Values under keys over a table of defaults.  A change announces the keys that it affects, so that
those who follow the options can read these keys again.

* `Options` — the options with the values that override defaults;
* `Options.get?`, `Options.keys` — what the options read as;
* `Options.update`, `Options.reset` — the changes, each with what it announces.
-/

/-- Values under keys over a table of defaults. -/
structure Options (α : Type) where
  /-- The values from which the options start. -/
  defaults : Table α
  /-- The values that have been set. -/
  overrides : Table α := .empty

/-- A key without a value. -/
structure MissingKey where
  /-- The key. -/
  key : String
deriving DecidableEq, Repr

/-- The wording of the error. -/
def MissingKey.message (e : MissingKey) : String :=
  Text.quoted e.key

/-- What a change of options leads to. -/
structure OptionChange (α : Type) where
  /-- The options afterwards. -/
  options : Options α
  /-- The keys that the change announces, unless it announces nothing. -/
  announced : Option (List String)
  /-- The key at which the change broke off, if it did. -/
  error : Option MissingKey := none

namespace Options

variable {α : Type}

/-- The value under a key: the one that has been set, or else the default. -/
def get? (o : Options α) (key : String) : Option α :=
  (o.overrides.get? key).or (o.defaults.get? key)

/-- The value under a key that has to be there. -/
def get (o : Options α) (key : String) : Except MissingKey α :=
  (o.get? key).elim (.error ⟨key⟩) .ok

/-- Whether a key has a value. -/
def contains (o : Options α) (key : String) : Bool :=
  o.overrides.contains key || o.defaults.contains key

/-- The keys: first those with defaults, then the others in the order in which they were set. -/
def keys (o : Options α) : List String :=
  o.defaults.keys ++ o.overrides.keys.filter (!o.defaults.contains ·)

/-- Sets several values at once, and announces their keys. -/
def update (o : Options α) (values : Table α) : OptionChange α :=
  ⟨{ o with overrides := o.overrides.merge values }, some values.keys, none⟩

/-- Sets one value. -/
def set (o : Options α) (key : String) (a : α) : OptionChange α :=
  o.update (Table.empty.insert key a)

/-- Erases keys one after the other, as long as each has a value. -/
def eraseEach (values : Table α) : List String → Table α × Option MissingKey
  | [] => (values, none)
  | key :: keys =>
    if values.contains key then eraseEach (values.erase key) keys else (values, some ⟨key⟩)

/-- Lets keys fall back to their defaults, and announces those that had been set.  A key that is
    listed twice is also erased twice: the second time breaks off the change, and nothing is
    announced. -/
def reset (o : Options α) (keys : List String) : OptionChange α :=
  let dropped := keys.filter o.overrides.contains
  match eraseEach o.overrides dropped with
  | (overrides, some e) => ⟨{ o with overrides }, none, some e⟩
  | (overrides, none) =>
    ⟨{ o with overrides }, if dropped.isEmpty then none else some dropped, none⟩

end Options

end LyqlHighlight
