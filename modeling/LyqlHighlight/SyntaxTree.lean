import LyqlHighlight.Node

namespace LyqlHighlight

/-!
# Concrete syntax trees

A concrete syntax tree covers the UTF-8 form of a text and counts its bytes.

* `SyntaxTree` — the trees;
* `SyntaxTree.toNode` — the same tree as a node over the characters of the text.
-/

/-- A concrete syntax tree over the bytes of a text. -/
inductive SyntaxTree where
  /-- A node of some type from one byte up to another; `named` tells rules of the grammar from
      literal text. -/
  | node (type : String) (start stop : Int) (named : Bool) (children : List SyntaxTree)

/-- Why a concrete syntax tree has no counterpart. -/
inductive ConversionError where
  /-- The node of this type is nested too deeply. -/
  | tooDeep (type : String)
  /-- A bound of a node is not at a character. -/
  | offset (e : Text.OffsetError)
deriving DecidableEq, Repr

/-- The wording of the error. -/
def ConversionError.message : ConversionError → String
  | tooDeep type => "Syntax tree is nested too deeply at " ++ Text.quoted type
  | offset e => e.message

namespace SyntaxTree

/-- Whether the node is named. -/
def named : SyntaxTree → Bool
  | node _ _ _ named _ => named

/-- The node over the characters of `text` that corresponds to a tree over its bytes, if the tree
    nests at most `depth` nodes.  With `namedOnly`, children that are not named are left out. -/
def convert (text : List Char) (namedOnly : Bool) : Nat → SyntaxTree → Except ConversionError Node
  | 0, node type _ _ _ _ => .error (.tooDeep type)
  | depth + 1, node type start stop _ children => do
    let kept := if namedOnly then children.filter named else children
    let nodes ← kept.mapM (convert text namedOnly depth)
    let first ← (Text.charOffset text start).mapError .offset
    let last ← (Text.charOffset text stop).mapError .offset
    return .spanned type ⟨first, last⟩ nodes

/-- The node over the characters of a text that corresponds to a tree over its bytes. -/
def toNode (tree : SyntaxTree) (text : String) (namedOnly : Bool := false)
    (depth : Int := Node.defaultDepth) : Except ConversionError Node :=
  convert text.toList namedOnly depth.toNat tree

end SyntaxTree

end LyqlHighlight
