import LyqlHighlight.Lexical.Scan
import LyqlHighlight.Node

namespace LyqlHighlight.Lexical

/-!
# Programs as nodes

* `Token.node` — the node of a token;
* `tokenize` — a flat node over a whole text, with a child for each token.
-/

/-- The tag of the node over a whole text, unless another one is asked for. -/
def programTag : String := "Program"

/-- The node of a token. -/
def Token.node (t : Token) : Node :=
  .spanned t.tag.name ⟨t.start, t.stop⟩ []

/-- The node over a whole text, with a child for each token.  An empty tag counts as none. -/
def tokenize (text : String) (tag : String := "") : Except ScanError Node :=
  let s := scan text
  match s.error with
  | some e => .error e
  | none =>
    .ok (.spanned (if tag.isEmpty then programTag else tag) ⟨0, text.length⟩
      (s.tokens.map Token.node))

end LyqlHighlight.Lexical
