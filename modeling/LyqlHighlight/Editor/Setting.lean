import LyqlHighlight.Options
import LyqlHighlight.Paint.Format
import LyqlHighlight.Parse.Parser

namespace LyqlHighlight

/-!
# The settings of an editor

* `Setting` — the value of an option: a plain value or a parser;
* `Setting.defaults` — the settings that every editor starts from.  There is none for the font;
* `Palette`, `Palette.setColors` — the colors of an editor, and new ones for it.
-/

/-- The value of an option of an editor. -/
inductive Setting where
  /-- A plain value. -/
  | plain (v : Value)
  /-- A parser. -/
  | parser (p : Parser)

namespace Setting

/-- The plain value of a setting; a parser goes by its name. -/
def value : Setting → Value
  | plain v => v
  | parser p => .str p.name

/-- Whether a setting sets a flag. -/
def holds : Setting → Bool
  | plain v => v.holds
  | parser _ => true

/-- The parser that a setting gives.  With a plain value every text fails. -/
def toParser : Setting → Parser
  | parser p => p
  | plain v => ⟨v.kind, fun _ => .failed (.noParser v.kind)⟩

/-- The settings that every editor starts from. -/
def defaults : Table Setting :=
  .ofList
    [("parse_source", parser .lyql),
     ("keep_last_good", plain (.bool false)),
     ("highlights", plain lyqlSpecs),
     ("colors", plain plainColors)]

/-- The options of an editor for which some settings have been given. -/
def options (given : Table Setting) : Options Setting := ⟨defaults, given⟩

end Setting

/-- The colors of an editor. -/
structure Palette where
  /-- The color behind the text. -/
  base : Value := .none
  /-- The color around the text. -/
  window : Value := .none
  /-- The color of the text. -/
  text : Value := .none
deriving Repr

/-- Takes colors over: that behind the text for the text and around it, then that of the text.  The
    first of the two that is missing ends this, and what has been taken over stays. -/
def Palette.setColors (p : Palette) (colors : Value) : Palette × Option MissingKey :=
  match colors.field? "bg" with
  | none => (p, some ⟨"bg"⟩)
  | some background =>
    let p := { p with base := background, window := background }
    match colors.field? "fg" with
    | none => (p, some ⟨"fg"⟩)
    | some foreground => ({ p with text := foreground }, none)

end LyqlHighlight
