import LyqlHighlight.Editor.Basic

namespace LyqlHighlight.Editor

/-!
# What an editor does

Whenever the text or a setting changes, those who follow it are told in their order; if one of
them breaks off, the others are not told any more.  Others than the behaviors may follow the tree,
and may report the contents as changed in turn: what making a tree known leads to is an action that
each operation is given, by default that the behaviors show the tree.

* `reparse` — a pass over the text, unless the text is that of the last pass;
* `setText` — a new text;
* `changeOptions` — new settings;
* `addBehavior`, `removeBehavior` — at most one behavior of a kind is held;
* `Editor.new` — a new editor.
-/

/-! ### The tree -/

/-- Shows the tree of the editor by the highlighter of a behavior, if it has one. -/
def showTree (id : Nat) : Editing Unit := do
  let e ← get
  match e.highlighter? id with
  | none => return
  | some h =>
    let (h, error) := h.setTree e.tree.tree e.parsedText
    -- The tree is taken even if its ranges cannot be; the painted blocks then stay as they are.
    set (e.setHighlighter id h)
    match error with
    | some error => throw (.offset error)
    | none => modify (·.rehighlight (.behavior id))

/-- Shows the tree of the editor by the highlighters of all behaviors that follow it. -/
def showTrees : Editing Unit := do
  (← get).treeFollowers.forM showTree

/-- Makes the outcome of a pass known to all who follow the tree. -/
def publish (o : Outcome) (announce : Editing Unit := showTrees) : Editing Unit := do
  modify fun e =>
    { e with
      tree := o.snapshot
      lastOutcome := some o
      activity.published := e.activity.published ++ [o.snapshot]
      activity.outcomes := e.activity.outcomes + 1 }
  announce

/-- A pass over the text of the document.  There is none if the text is that of the last pass,
    except under force. -/
def reparse (force : Bool) (announce : Editing Unit := showTrees) : Editing Unit := do
  let e ← get
  let text := e.document.text
  if text = e.parsedText && !force then return
  let inquiry : Inquiry := ⟨e.adapter, e.descriptors, text⟩
  let pass := inquiry.pass
  -- From here on the text counts as parsed, also if the pass is interrupted.
  set { e with
    parsedText := text
    adapter := pass.adapter
    descriptors := pass.descriptors
    inquiries := e.inquiries ++ [inquiry]
    activity.log := e.activity.log ++ pass.log }
  match pass.result with
  | .error interrupt => throw (.interrupted interrupt)
  | .ok o => publish o announce

/-- Replaces the text of the document. -/
def setText (text : String) (announce : Editing Unit := showTrees) : Editing Unit := do
  modify fun e => { e with document := e.document.setText text }
  -- Until the new text is parsed, it is painted from the old tree.
  modify rehighlightAll
  reparse false announce

/-! ### The options -/

/-- The setting under a key that has to be there. -/
def setting (key : String) : Editing Setting := do
  match (← get).options.get key with
  | .ok s => return s
  | .error e => throw (.missingKey e)

/-- Takes a font. -/
def setFont (font : Setting) : Editing Unit :=
  modify fun e => { e with font := some font.value }

/-- Takes colors, as far as they are there. -/
def setColors (colors : Setting) : Editing Unit := do
  let (palette, error) := (← get).palette.setColors colors.value
  modify fun e => { e with palette }
  if let some error := error then throw (.missingKey error)

/-- Takes a parser, by a new adapter, and has it parse the text. -/
def setParser (parser keepLastGood : Setting) (announce : Editing Unit := showTrees) :
    Editing Unit := do
  modify fun e =>
    { e with
      adapter :=
        -- A new adapter has no last good tree, but its trees get no revision twice.
        { parser := parser.toParser
          keepLastGood := keepLastGood.holds
          revision := e.adapter.revision }
      activity.adapters := e.activity.adapters + 1 }
  reparse true announce

/-- Gives a behavior new highlights: in place of the old highlighter a new one, or none. -/
def setHighlights (id : Nat) (highlights : Value) : Editing Unit := do
  modify fun e =>
    let e := e.updateBehavior id fun b => { b with highlights }
    let e := e.detachHighlighter id
    -- The new highlighter becomes the last painter, so nobody clears what it paints.
    match e.highlighterFor highlights with
    | none => e.setHighlighter id none
    | some h => (e.setHighlighter id h).attach (.behavior id)
  showTree id

/-- Reads the font again, if it is among the keys. -/
def readFont (keys : List String) : Editing Unit := do
  if "font" ∈ keys then
    setFont (← setting "font")

/-- Reads the colors again, if they are among the keys. -/
def readColors (keys : List String) : Editing Unit := do
  if "colors" ∈ keys then
    setColors (← setting "colors")

/-- Reads again what parser to use and how, if one of the two is among the keys. -/
def readParser (keys : List String) (announce : Editing Unit := showTrees) : Editing Unit := do
  if "parse_source" ∈ keys ∨ "keep_last_good" ∈ keys then
    setParser (← setting "parse_source") (← setting "keep_last_good") announce

/-- Reads the settings under some keys again, for the editor itself. -/
def readOptions (keys : List String) (announce : Editing Unit := showTrees) : Editing Unit := do
  readFont keys
  readColors keys
  readParser keys announce

/-- The highlights that the options give. -/
def highlights (e : Editor) : Value :=
  ((e.options.get? "highlights").map Setting.value).getD .none

/-- Tells somebody who follows the options that the settings under some keys have changed. -/
def tell (keys : List String) (announce : Editing Unit) : OptionFollower → Editing Unit
  | .editor => readOptions keys announce
  | .behavior id => do
    let e ← get
    if "highlights" ∈ keys ∧ e.behaviors[id]?.any (·.kind = .highlighting) then
      setHighlights id e.highlights

/-- Takes changed options, and tells all who follow them. -/
def changeOptions (change : OptionChange Setting) (announce : Editing Unit := showTrees) :
    Editing Unit := do
  modify fun e => { e with options := change.options }
  match change.error, change.announced with
  | some error, _ => throw (.missingKey error)
  | none, none => return
  | none, some keys => (← get).optionFollowers.forM (tell keys announce)

/-- Sets several options. -/
def updateOptions (values : Table Setting) (announce : Editing Unit := showTrees) :
    Editing Unit := do
  changeOptions ((← get).options.update values) announce

/-- Lets options fall back to their defaults. -/
def resetOptions (keys : List String) (announce : Editing Unit := showTrees) : Editing Unit := do
  changeOptions ((← get).options.reset keys) announce

/-! ### The behaviors -/

/-- Undoes all that a behavior has installed. -/
def uninstall (id : Nat) : Editing Unit := do
  modify fun e => { e with optionFollowers := e.optionFollowers.erase (.behavior id) }
  if (← get).behaviors[id]?.any (·.kind = .highlighting) then
    modify fun e =>
      let e := { e with treeFollowers := e.treeFollowers.erase id }
      let e := (e.detachHighlighter id).setHighlighter id none
      (e.attach .idle).rehighlight .idle

/-- Removes the behaviors of a kind, and returns the number of the first of them. -/
def removeBehavior (kind : BehaviorKind) : Editing (Option Nat) := do
  let removed := (← get).heldOf kind
  modify fun e => { e with held := e.held.filter (· ∉ removed) }
  removed.forM uninstall
  return removed.head?

/-- Has a new behavior follow what it has to, and returns its number. -/
def install (kind : BehaviorKind) : Editing Nat := do
  let id := (← get).behaviors.length
  modify fun e =>
    { e with
      behaviors := e.behaviors ++ [{ kind }]
      optionFollowers := e.optionFollowers ++ [.behavior id] }
  if kind = .highlighting then
    modify fun e => { e with treeFollowers := e.treeFollowers ++ [id] }
    setHighlights id (← get).highlights
  return id

/-- Adds a behavior in place of those of its kind.  Returns the number of the first old one, if
    there was any, and its own. -/
def addBehavior (kind : BehaviorKind) : Editing (Option Nat × Nat) := do
  let old ← removeBehavior kind
  let id ← install kind
  modify fun e => { e with held := e.held ++ [id] }
  return (old, id)

end LyqlHighlight.Editor

namespace LyqlHighlight

/-- A new editor: it has read all its settings, and parsed the empty text. -/
def Editor.new (options : Options Setting) (descriptors : Descriptors) :
    Except EditorError Editor :=
  let (result, e) := (Editor.readOptions options.keys).run.run { options, descriptors }
  result.map fun _ => { e with activity := {} }

end LyqlHighlight
