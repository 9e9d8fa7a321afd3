import LyqlHighlight.Editor.Document
import LyqlHighlight.Editor.Setting
import LyqlHighlight.Parse.Adapter

namespace LyqlHighlight

/-!
# Editors

An editor keeps a document, its options, and the tree of its text.  Behaviors are attached to it;
they follow the options and the tree.

* `Behavior` — a feature of an editor; a highlighting behavior has a highlighter as long as there
  are highlights;
* `Inquiry` — a pass that is asked of an adapter;
* `Editor` — the state of an editor, with who follows what;
* `EditorError`, `Editing` — an operation may break off, and what it has done until then stays.
-/

/-- The kinds of behaviors. -/
inductive BehaviorKind where
  /-- A behavior that follows no option and no tree. -/
  | plain
  /-- Paints the document from the tree. -/
  | highlighting
deriving DecidableEq, Repr

/-- A feature attached to an editor. -/
structure Behavior where
  /-- Its kind. -/
  kind : BehaviorKind
  /-- The highlights that it was last given. -/
  highlights : Value := .none
  /-- Its highlighter, if there is one. -/
  highlighter : Option Highlighter := none

/-- Those who follow the options. -/
inductive OptionFollower where
  /-- The editor itself. -/
  | editor
  /-- The behavior with a number. -/
  | behavior (id : Nat)
deriving DecidableEq, Repr

/-- Why an operation on an editor broke off. -/
inductive EditorError where
  /-- An option or a color has no value. -/
  | missingKey (e : MissingKey)
  /-- The parser was interrupted. -/
  | interrupted (e : Interrupt)
  /-- A range of the tree has no place in the text. -/
  | offset (e : Text.OffsetError)

/-- A pass that is asked of an adapter. -/
structure Inquiry where
  /-- The adapter. -/
  adapter : Adapter
  /-- The descriptors handed out before. -/
  descriptors : Descriptors
  /-- The text. -/
  text : String

/-- The pass that comes of it. -/
def Inquiry.pass (i : Inquiry) : Pass :=
  i.adapter.attempt i.descriptors i.text

/-- What an editor has done since the account began. -/
structure Activity where
  /-- The lines of the log. -/
  log : List LogRecord := []
  /-- The trees that were announced. -/
  published : List Snapshot := []
  /-- How many adapters were made. -/
  adapters : Nat := 0
  /-- How many passes had an outcome. -/
  outcomes : Nat := 0

/-- The state of an editor. -/
structure Editor where
  /-- The options. -/
  options : Options Setting
  /-- The descriptors handed out so far. -/
  descriptors : Descriptors
  /-- The document. -/
  document : Document := .ofText ""
  /-- The adapter of the parser in use. -/
  adapter : Adapter := { parser := .lyql }
  /-- The tree to show. -/
  tree : Snapshot := .empty
  /-- The text of the last pass. -/
  parsedText : String := ""
  /-- The outcome of the last pass. -/
  lastOutcome : Option Outcome := none
  /-- The passes that have been asked for, in their order. -/
  inquiries : List Inquiry := []
  /-- The colors. -/
  palette : Palette := {}
  /-- The font, once it is set. -/
  font : Option Value := none
  /-- All behaviors there have been, by their numbers. -/
  behaviors : List Behavior := []
  /-- The numbers of the behaviors that are held. -/
  held : List Nat := []
  /-- Those who follow the options, in their order. -/
  optionFollowers : List OptionFollower := [.editor]
  /-- The numbers of the behaviors that follow the tree, in their order. -/
  treeFollowers : List Nat := []
  /-- What the editor has done. -/
  activity : Activity := {}

/-- An operation on an editor.  It may break off, and what it has done until then stays. -/
abbrev Editing := ExceptT EditorError (StateM Editor)

namespace Editor

/-- The highlighter of the behavior with a number. -/
def highlighter? (e : Editor) (id : Nat) : Option Highlighter :=
  e.behaviors[id]?.bind Behavior.highlighter

/-- Changes the behavior with a number. -/
def updateBehavior (e : Editor) (id : Nat) (f : Behavior → Behavior) : Editor :=
  { e with behaviors := e.behaviors.modify id f }

/-- Gives the behavior with a number a highlighter, or none. -/
def setHighlighter (e : Editor) (id : Nat) (h : Option Highlighter) : Editor :=
  e.updateBehavior id fun b => { b with highlighter := h }

/-- The numbers of the held behaviors of a kind. -/
def heldOf (e : Editor) (kind : BehaviorKind) : List Nat :=
  e.held.filter fun id => e.behaviors[id]?.any (·.kind = kind)

/-- What a painter paints in a block. -/
def callsBy (e : Editor) (p : Painter) (b : Block) : List FormatCall :=
  match p with
  | .idle => []
  | .behavior id => (e.highlighter? id).elim [] (·.paint b)

/-- Has a painter paint the whole document. -/
def rehighlight (e : Editor) (p : Painter) : Editor :=
  { e with document := e.document.paint (e.callsBy p) }

/-- Has every painter paint the whole document, one after the other. -/
def rehighlightAll (e : Editor) : Editor :=
  e.document.painters.foldl rehighlight e

/-- Attaches a painter to the document. -/
def attach (e : Editor) (p : Painter) : Editor :=
  { e with document := e.document.attach p }

/-- Detaches the highlighter of a behavior, if it has one. -/
def detachHighlighter (e : Editor) (id : Nat) : Editor :=
  if (e.highlighter? id).isSome then { e with document := e.document.detach (.behavior id) } else e

/-- A highlighter for new highlights, unless there are to be none. -/
def highlighterFor (e : Editor) : Value → Option Highlighter
  | .none => none
  | specs => some (.ofSpecs e.descriptors.registry.rules specs)

end Editor

end LyqlHighlight
