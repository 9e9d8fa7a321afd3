import LyqlHighlight.Descriptor

namespace LyqlHighlight

/-!
# Trees for a highlighter

The tree that a highlighter works on.  A node knows its length, and where each child starts relative
to its own start.

* `Tree` — the trees;
* `StyledRange`, `Tree.styledRanges` — the absolute ranges of the nodes with a style, parents before
  their children.
-/

/-- A tree of described nodes.  The empty tree stands for a node without a place. -/
inductive Tree where
  /-- The tree without nodes. -/
  | empty
  /-- A node with its children and their starts relative to its own. -/
  | node (type : Descriptor) (children : List (Int × Tree)) (length : Int)

/-- A range of characters and the rule for it. -/
structure StyledRange where
  /-- The first position inside. -/
  start : Int
  /-- The first position after. -/
  stop : Int
  /-- The rule. -/
  rule : Rule
deriving DecidableEq, Repr

namespace Tree

instance : Inhabited Tree := ⟨empty⟩

/-- Whether the tree is the empty one. -/
def isEmpty : Tree → Bool
  | empty => true
  | node _ _ _ => false

/-- The descriptor of the topmost node. -/
def type : Tree → Descriptor
  | empty => .blank
  | node type _ _ => type

/-- The children of the topmost node, each with its relative start. -/
def children : Tree → List (Int × Tree)
  | empty => []
  | node _ children _ => children

/-- The length of the topmost node. -/
def length : Tree → Int
  | empty => 0
  | node _ _ length => length

/-- The range that a node covers by itself, if it has a style and is not empty. -/
def ownRange (type : Descriptor) (offset length : Int) : List StyledRange :=
  match type.style with
  | some rule => if 0 < length then [⟨offset, offset + length, rule⟩] else []
  | none => []

mutual

/-- The ranges of the nodes with a style, for a tree that starts at `offset`. -/
def styledRanges (offset : Int) : Tree → List StyledRange
  | empty => []
  | node type children length => ownRange type offset length ++ childRanges offset children

/-- The ranges of the children of a node that starts at `offset`. -/
def childRanges (offset : Int) : List (Int × Tree) → List StyledRange
  | [] => []
  | (position, child) :: others =>
    styledRanges (offset + position) child ++ childRanges offset others

end

end Tree

end LyqlHighlight
