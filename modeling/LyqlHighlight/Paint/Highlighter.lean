import LyqlHighlight.Paint.Format
import LyqlHighlight.Paint.RangeIndex

namespace LyqlHighlight

/-!
# Highlighters

A highlighter paints the blocks of a document from the latest tree.  It paints outer ranges before
the ranges inside them, so that of all ranges over a unit the innermost decides.

* `FormatCall` — a format for a part of a block;
* `Highlighter` — a tree with the formats of the style classes;
* `Highlighter.ofSpecs` — a highlighter for the classes of some rules;
* `Highlighter.setTree` — takes a new tree;
* `Highlighter.paint` — the format calls for a block.
-/

/-- Gives a format to a part of a block. -/
structure FormatCall where
  /-- The first unit of the part, counted from the start of the block. -/
  start : Int
  /-- The number of units. -/
  count : Int
  /-- The style class that the format belongs to. -/
  className : String
  /-- The format. -/
  format : Format
deriving Repr

/-- A tree with the formats of the style classes. -/
structure Highlighter where
  /-- The format of each style class. -/
  formats : Table Format
  /-- The tree. -/
  tree : Tree := .empty
  /-- The ranges to paint. -/
  index : RangeIndex := .empty

namespace Highlighter

/-- A highlighter for the style classes of some rules, with the specs given for some of them. -/
def ofSpecs (rules : List Rule) (given : Value) : Highlighter where
  formats := (classSpecs rules given).map Format.ofSpec

/-- Takes a new tree for a text.  If some range has no place in the text, the ranges to paint stay
    as they are. -/
def setTree (h : Highlighter) (tree : Tree) (text : String) :
    Highlighter × Option Text.OffsetError :=
  match PaintRange.ofTree tree text.toList with
  | .ok ranges => ({ h with tree, index := .ofList ranges }, none)
  | .error e => ({ h with tree }, some e)

/-- The format call for the part of a range inside a block, if there is one and the style class has
    a format. -/
def call? (h : Highlighter) (b : Block) (r : PaintRange) : Option FormatCall :=
  (h.formats.get? r.className).bind fun format =>
    let start := max 0 (r.start - b.position)
    let stop := min b.length (r.stop - b.position)
    if start < stop then some ⟨start, stop - start, r.className, format⟩ else none

/-- The format calls for a block, in their order. -/
def paint (h : Highlighter) (b : Block) : List FormatCall :=
  (h.index.near b).filterMap (h.call? b)

/-- The format calls for the current block of a document, of which there may be none. -/
def paintCurrent (h : Highlighter) (current : Option Block) : List FormatCall :=
  current.elim [] h.paint

end Highlighter

end LyqlHighlight
