import LyqlHighlight.Paint.Highlighter

namespace LyqlHighlight

/-!
# Documents

A document holds a text, shows it in blocks, and remembers the latest format calls for each block.

* `Painter` — who paints a document;
* `Document` — a text with its painted blocks and its painters;
* `Document.setText`, `Document.paint`, `Document.attach`, `Document.detach` — the changes.
-/

/-- Who paints a document. -/
inductive Painter where
  /-- Somebody who paints nothing, and so clears what others have painted. -/
  | idle
  /-- The highlighter of the behavior with a number. -/
  | behavior (id : Nat)
deriving DecidableEq, Repr

/-- A text with its painted blocks. -/
structure Document where
  /-- The text. -/
  text : String
  /-- The blocks of the text, each with its latest format calls. -/
  blocks : List (Block × List FormatCall)
  /-- The painters, in the order in which they were attached. -/
  painters : List Painter
deriving Repr

namespace Document

/-- The blocks of a text, none of them painted. -/
def blank (text : String) : List (Block × List FormatCall) :=
  (Block.ofText text.toList).map fun b => (b, [])

/-- A document that nobody paints. -/
def ofText (text : String) : Document := ⟨text, blank text, []⟩

/-- Replaces the text and the blocks. -/
def setText (d : Document) (text : String) : Document :=
  { d with text, blocks := blank text }

/-- Paints all blocks anew. -/
def paint (d : Document) (calls : Block → List FormatCall) : Document :=
  { d with blocks := d.blocks.map fun b => (b.1, calls b.1) }

/-- Attaches a painter, who paints nothing yet. -/
def attach (d : Document) (p : Painter) : Document :=
  { d with painters := d.painters ++ [p] }

/-- Detaches a painter.  With that, all that has been painted goes. -/
def detach (d : Document) (p : Painter) : Document :=
  { d.paint (fun _ => []) with painters := d.painters.erase p }

end Document

end LyqlHighlight
