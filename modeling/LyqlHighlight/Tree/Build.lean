import LyqlHighlight.Node
import LyqlHighlight.Tree

namespace LyqlHighlight

/-!
# Building trees from syntax nodes

* `Node.place` — where a node stands among its siblings;
* `BuildM` — building hands out descriptors, and keeps those handed out when it fails;
* `Tree.build` — the tree of a node;
* `Tree.buildRoot` — the same under a root that starts with the document.
-/

/-- A node that is nested too deeply. -/
structure TooDeep where
  /-- The tag of the node. -/
  tag : String
deriving DecidableEq, Repr

/-- The wording of the error. -/
def TooDeep.message (e : TooDeep) : String :=
  "AST is nested too deeply at " ++ Text.quoted e.tag

/-- Building may fail, and what it has handed out until then stays. -/
abbrev BuildM := ExceptT TooDeep (StateM Descriptors)

/-- The descriptor of a tag. -/
def describe (tag : String) : BuildM Descriptor :=
  modifyGet fun ds => ds.describe tag

/-- The position by which a node is placed among its siblings: its start, and one before the
    document for a detached node. -/
def Node.place : Node → Int
  | spanned _ span _ => span.start
  | detached _ _ => -1

/-- Nodes in the order of their places; nodes at the same place keep their order. -/
def Node.inOrder (nodes : List Node) : List Node :=
  nodes.mergeSort fun a b => a.place ≤ b.place

namespace Tree

/-- The tree of a node, if it nests at most `depth` spanned nodes.  A node gets its descriptor
    after its children, and a detached one becomes the empty tree. -/
def buildWithin : Nat → Node → BuildM Tree
  | _, .detached _ _ => return empty
  | 0, .spanned tag _ _ => throw ⟨tag⟩
  | depth + 1, .spanned tag span nodes => do
    let children ← (Node.inOrder nodes).mapM fun child => do
      let tree ← buildWithin depth child
      return (max (child.place - span.start) 0, tree)
    return node (← describe tag) children span.length

/-- The tree of a node, with an allowance of levels that may be any integer. -/
def build (n : Node) (depth : Int := Node.defaultDepth) : BuildM Tree :=
  buildWithin depth.toNat n

/-- The tag of the root above a tree. -/
def rootTag : String := "_root"

/-- The tree of a node under a root that starts with the document and ends with the node.  The root
    takes one of the allowed levels. -/
def buildRoot (n : Node) (depth : Int := Node.defaultDepth) : BuildM Tree :=
  match n with
  | .detached _ _ => return empty
  | .spanned _ span _ => do
    let type ← describe rootTag
    let tree ← build n (depth - 1)
    return node type [(span.start, tree)] span.stop

end Tree

end LyqlHighlight
