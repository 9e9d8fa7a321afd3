import LyqlHighlight.Span
import LyqlHighlight.Text.Quoted

namespace LyqlHighlight

/-!
# Syntax nodes

A parser reports a tree of tagged nodes.  A node either covers a span of the source, or is
detached and has no place in the document.

* `Node` — the trees;
* `Node.text` — the text that shows a node in a message;
* `tupleText` — the layout of a row of items between parentheses.
-/

/-- A syntax node: its tag, its span if it is placed in the source, and its children. -/
inductive Node where
  /-- A node that covers a span of the source. -/
  | spanned (tag : String) (span : Span) (children : List Node)
  /-- A node without a place in the source. -/
  | detached (tag : String) (children : List Node)
deriving Repr

/-- Items between parentheses, with a comma behind a single one. -/
def tupleText : List String → String
  | [] => "()"
  | [item] => "(" ++ item ++ ",)"
  | items => "(" ++ ", ".intercalate items ++ ")"

namespace Node

/-- The tag of a node. -/
def tag : Node → String
  | spanned tag _ _ => tag
  | detached tag _ => tag

/-- The span of a node that has one. -/
def span? : Node → Option Span
  | spanned _ span _ => some span
  | detached _ _ => none

/-- The children of a node. -/
def children : Node → List Node
  | spanned _ _ children => children
  | detached _ children => children

mutual

/-- The text that shows a node in a message. -/
def text : Node → String
  | spanned tag span children =>
    "AstNode(tag=" ++ Text.quoted tag ++ ", span=" ++ span.text
      ++ ", children=" ++ tupleText (texts children) ++ ")"
  | detached tag children =>
    "DetachedNode(tag=" ++ Text.quoted tag ++ ", children=" ++ tupleText (texts children) ++ ")"

/-- The texts of several nodes. -/
def texts : List Node → List String
  | [] => []
  | node :: nodes => node.text :: texts nodes

end

/-- The number of levels below which the functions on nodes do not descend by default. -/
def defaultDepth : Nat := 512

end Node

end LyqlHighlight
