import LyqlHighlight.Registry

namespace LyqlHighlight

/-!
# Type descriptors

A tree refers to the tag of each node by a descriptor, which holds the rule for the tag.  A tag gets
its descriptor when it is first asked for, and keeps it.

* `Descriptor` — a numbered tag with its rule;
* `Descriptors` — the descriptors handed out so far;
* `Descriptors.describe` — the descriptor of a tag.
-/

/-- A tag as the trees refer to it. -/
structure Descriptor where
  /-- The tag. -/
  name : String
  /-- The number of the descriptor. -/
  id : Nat
  /-- The rule for the tag, if it is registered. -/
  style : Option Rule
deriving DecidableEq, Repr

/-- The descriptor of the empty tree, which stands for no tag. -/
def Descriptor.blank : Descriptor := ⟨"", 0, none⟩

/-- The descriptors handed out so far over a registry. -/
structure Descriptors where
  /-- The registry that the rules are taken from. -/
  registry : Registry
  /-- The descriptors, in the order in which their tags were first asked for. -/
  known : List Descriptor

namespace Descriptors

/-- No descriptors yet. -/
def empty (registry : Registry) : Descriptors := ⟨registry, []⟩

/-- The descriptor of a tag that has one. -/
def get? (ds : Descriptors) (tag : String) : Option Descriptor :=
  ds.known.find? (·.name = tag)

/-- Whether a tag has a descriptor. -/
def contains (ds : Descriptors) (tag : String) : Bool :=
  (ds.get? tag).isSome

/-- The number of descriptors. -/
def size (ds : Descriptors) : Nat :=
  ds.known.length

/-- The descriptor of a tag, a new one with the next number if it has none. -/
def describe (ds : Descriptors) (tag : String) : Descriptor × Descriptors :=
  match ds.get? tag with
  | some d => (d, ds)
  | none =>
    let d : Descriptor := ⟨tag, ds.size + 1, ds.registry.rule? tag⟩
    (d, { ds with known := ds.known ++ [d] })

end Descriptors

end LyqlHighlight
