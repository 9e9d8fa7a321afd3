import LyqlHighlight.Registry
import LyqlHighlight.Table
import LyqlHighlight.Value

namespace LyqlHighlight

/-!
# Formats

A spec says in loosely typed fields how text is to look; a format is what a document understands.
The specs of the user are keyed by style class, and a class without one falls back on the category
of its first rule.

* `Format`, `Format.ofSpec` — formats, and the format of a spec;
* `Category.spec` — the spec of a category;
* `classSpecs` — the spec of each style class of some rules;
* `lyqlSpecs`, `plainColors` — the specs for the classes of LyQL, and the colors of a plain editor.
-/

/-- How text looks in a document. -/
structure Format where
  /-- The color of the text, if one is given. -/
  foreground : Option Value := none
  /-- The color behind the text, if one is given. -/
  background : Option Value := none
  /-- Whether the text is bold. -/
  bold : Bool := false
  /-- Whether the text is slanted. -/
  italic : Bool := false
  /-- Whether the text is underlined. -/
  underline : Bool := false
deriving Repr

/-- Whether the value under a key of a mapping sets a flag. -/
def Value.flag (v : Value) (key : String) : Bool :=
  (v.field? key).any holds

/-- The format of a spec. -/
def Format.ofSpec (spec : Value) : Format where
  foreground := spec.field? "color"
  background := spec.field? "background"
  bold := spec.flag "bold"
  italic := spec.flag "italic"
  underline := spec.flag "underline"

/-- The spec of a color. -/
def colorSpec (color : String) (more : List (String × Value) := []) : Value :=
  .mapping (("color", .str color) :: more)

/-- The spec for the classes of a category that have none of their own. -/
def Category.spec : Category → Value
  | string => colorSpec "#A31515"
  | number => colorSpec "#098658"
  | identifier => colorSpec "#001080"
  | boolean => colorSpec "#0000FF"
  | link => colorSpec "#AF00DB" [("underline", .bool true)]
  | keyword => colorSpec "#0000FF" [("bold", .bool true)]
  | operator => colorSpec "#000000"
  | null => colorSpec "#0000FF" [("italic", .bool true)]

/-- The spec of each style class of some rules: the given one, or else that of the category of the
    first rule for the class. -/
def classSpecs (rules : List Rule) (given : Value) : Table Value :=
  rules.foldl
    (fun specs r =>
      if specs.contains r.className then specs
      else specs.insert r.className ((given.field? r.className).getD r.category.spec))
    .empty

/-- The specs for the style classes of LyQL. -/
def lyqlSpecs : Value :=
  .mapping
    [("cm-string", colorSpec "#A31515"),
     ("cm-number", colorSpec "#098658"),
     ("cm-identifier", colorSpec "#001080"),
     ("cm-boolean", colorSpec "#0000FF"),
     ("cm-keyword", colorSpec "#AF00DB" [("bold", .bool true)]),
     ("cm-sqlkeyword", colorSpec "#0000FF" [("bold", .bool true)]),
     ("cm-symbol", colorSpec "#000000"),
     ("cm-null-undefined", colorSpec "#0000FF" [("italic", .bool true)])]

/-- The colors of a plain editor: black on white. -/
def plainColors : Value :=
  .mapping [("bg", .str "#FFFFFF"), ("fg", .str "#000000")]

end LyqlHighlight
