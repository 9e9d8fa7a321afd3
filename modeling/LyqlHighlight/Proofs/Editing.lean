import LyqlHighlight.Editor.Operations
import LyqlHighlight.Proofs.Sessions
import LyqlHighlight.Proofs.Totality

namespace LyqlHighlight

/-!
# Operations on an editor

Operations are put together from smaller ones, and each of the small ones changes little: painting
changes nothing but what is painted, and a pass hands its result to those who follow the tree.

* `Editing.runOn_bind`, `Editing.Ends` — how an operation ends, step by step;
* `Editor.unpainted` — an editor without all that painting changes;
* `Editor.ends_showTree`, `Editor.ends_showTrees` — to show a tree is painting, and breaks off only
  for a tree that the text has no place for;
* `Editor.passed`, `Editor.runOn_reparse` — the editor that those who follow the tree see after a
  pass;
* `Editor.Move` — what can be done with an editor.
-/

variable {α β : Type}

/-! ### How operations end -/

namespace Editing

/-- What an operation on an editor returns, or why it broke off, and the editor afterwards. -/
def runOn (m : Editing α) (e : Editor) : Except EditorError α × Editor :=
  m.run.run e

theorem runOn_bind (m : Editing α) (f : α → Editing β) (e : Editor) :
    (m >>= f).runOn e =
      match m.runOn e with
      | (.ok a, e) => (f a).runOn e
      | (.error error, e) => (.error error, e) := by
  -- A sequence goes on from what the first operation ended with, also if that is an error.
  have unfolded : (m >>= f).runOn e =
      (fun ended : Except EditorError α × Editor => (ExceptT.bindCont f ended.1).run ended.2)
        (m.runOn e) := rfl
  rw [unfolded]
  rcases m.runOn e with ⟨result, after⟩
  cases result <;> rfl

theorem runOn_get_bind (f : Editor → Editing β) (e : Editor) :
    (get >>= f).runOn e = (f e).runOn e := rfl

theorem runOn_set_bind (e' : Editor) (f : PUnit → Editing β) (e : Editor) :
    (set e' >>= f).runOn e = (f ()).runOn e' := rfl

/-- How an operation ends: it is done with some result and state, or it has broken off with some
    error and state. -/
def Ends (m : Editing α) (e : Editor) (done : α → Editor → Prop)
    (broken : EditorError → Editor → Prop) : Prop :=
  match m.runOn e with
  | (.ok a, e) => done a e
  | (.error error, e) => broken error e

variable {e : Editor} {broken : EditorError → Editor → Prop}

theorem ends_iff {m : Editing α} {done : α → Editor → Prop} :
    m.Ends e done broken ↔
      (∃ a e', m.runOn e = (.ok a, e') ∧ done a e') ∨
      (∃ error e', m.runOn e = (.error error, e') ∧ broken error e') := by
  unfold Ends
  rcases m.runOn e with ⟨result, after⟩
  cases result <;> simp

theorem ends_of_runOn {m : Editing α} {done : α → Editor → Prop} {a : α} {e' : Editor}
    (run : m.runOn e = (.ok a, e')) (h : done a e') : m.Ends e done broken :=
  ends_iff.mpr (.inl ⟨a, e', run, h⟩)

theorem Ends.of_runOn_eq {m m' : Editing α} {done : α → Editor → Prop} {e' : Editor}
    (h : m'.Ends e' done broken) (run : m.runOn e = m'.runOn e') : m.Ends e done broken := by
  unfold Ends
  rw [run]
  exact h

theorem Ends.bind {m : Editing α} {f : α → Editing β} {between : α → Editor → Prop}
    {done : β → Editor → Prop} (first : m.Ends e between broken)
    (next : ∀ a e, between a e → (f a).Ends e done broken) : (m >>= f).Ends e done broken := by
  unfold Ends
  rw [runOn_bind]
  rcases ends_iff.mp first with ⟨a, after, run, h⟩ | ⟨error, after, run, h⟩
  · rw [run]
    exact next a after h
  · rw [run]
    exact h

theorem Ends.after {m : Editing α} {f : α → Editing β} {done : β → Editor → Prop} {a : α}
    {e' : Editor} (h : (f a).Ends e' done broken) (run : m.runOn e = (.ok a, e')) :
    (m >>= f).Ends e done broken := by
  refine h.of_runOn_eq ?_
  rw [runOn_bind, run]

theorem Ends.imp {m : Editing α} {done done' : α → Editor → Prop}
    {broken' : EditorError → Editor → Prop} (h : m.Ends e done broken)
    (hdone : ∀ a e, done a e → done' a e)
    (hbroken : ∀ error e, broken error e → broken' error e) : m.Ends e done' broken' := by
  rcases ends_iff.mp h with ⟨a, after, run, h⟩ | ⟨error, after, run, h⟩
  · exact ends_iff.mpr (.inl ⟨a, after, run, hdone a after h⟩)
  · exact ends_iff.mpr (.inr ⟨error, after, run, hbroken error after h⟩)

/-- What holds however an operation is done, holds after it has been done. -/
theorem Ends.of_done {m : Editing α} {done : α → Editor → Prop} (h : m.Ends e done broken) {a : α}
    {e' : Editor} (run : m.runOn e = (.ok a, e')) : done a e' := by
  unfold Ends at h
  rw [run] at h
  exact h

/-- Operations in a row that are done have been done one after the other. -/
theorem exists_of_runOn_bind {m : Editing α} {f : α → Editing β} {b : β} {e' : Editor}
    (run : (m >>= f).runOn e = (.ok b, e')) :
    ∃ a e₁, m.runOn e = (.ok a, e₁) ∧ (f a).runOn e₁ = (.ok b, e') := by
  rw [runOn_bind] at run
  rcases first : m.runOn e with ⟨a | error, e₁⟩
  · rw [first] at run
    cases run
  · rw [first] at run
    exact ⟨_, _, rfl, run⟩

/-- An operation that does nothing. -/
def Idle (m : Editing Unit) : Prop :=
  ∀ e, m.runOn e = (.ok (), e)

theorem Idle.forM {xs : List β} {f : β → Editing Unit} (h : ∀ x ∈ xs, Idle (f x)) :
    Idle (xs.forM f) := by
  intro e
  induction xs with
  | nil => rfl
  | cons x xs ih =>
    show (f x >>= fun _ => xs.forM f).runOn e = _
    rw [runOn_bind, h x List.mem_cons_self e]
    exact ih fun x hx => h x (List.mem_cons_of_mem _ hx)

/-- What comes in front of an operation that does nothing is all there is. -/
theorem Idle.runOn_bind_left {f : Unit → Editing Unit} (h : Idle (f ())) (m : Editing Unit)
    (e : Editor) : (m >>= f).runOn e = m.runOn e := by
  rw [runOn_bind]
  rcases m.runOn e with ⟨result, after⟩
  cases result with
  | ok => exact h after
  | error => rfl

/-- What every action of a loop keeps, the loop keeps. -/
theorem ends_forM {xs : List β} {f : β → Editing Unit} {kept : Editor → Prop}
    (step : ∀ x ∈ xs, ∀ e, kept e → (f x).Ends e (fun _ => kept) broken) (h : kept e) :
    (xs.forM f).Ends e (fun _ => kept) broken := by
  -- For every editor that the loop may start from, as each action leaves another one behind.
  induction xs generalizing e with
  | nil => exact h
  | cons x xs ih =>
    refine (step x List.mem_cons_self e h).bind fun _ e h => ?_
    exact ih (fun x hx => step x (List.mem_cons_of_mem _ hx)) h

/-- A loop that is done has done its first action, and then the others. -/
theorem exists_of_runOn_forM {x : β} {xs : List β} {f : β → Editing Unit} {e' : Editor}
    (run : ((x :: xs).forM f).runOn e = (.ok (), e')) :
    ∃ e₁, (f x).runOn e = (.ok (), e₁) ∧ (xs.forM f).runOn e₁ = (.ok (), e') := by
  have unfolded : (x :: xs).forM f = f x >>= fun _ => xs.forM f := rfl
  rw [unfolded] at run
  obtain ⟨_, e₁, first, rest⟩ := exists_of_runOn_bind run
  exact ⟨e₁, first, rest⟩

end Editing

/-! ### Painting -/

/-- A text has no place for a tree: characters take several units there, and one of the ranges that
    stop in the text starts so far before it that counting from its end finds nothing. -/
def Tree.Unplaced (tree : Tree) (text : String) : Prop :=
  Text.units text.toList ≠ text.toList.length ∧
    ∃ r ∈ tree.styledRanges 0, r.stop ≤ text.toList.length ∧
      r.start < -(text.toList.length + 1 : Int)

theorem Tree.not_unplaced_empty (tree : Tree) : ¬tree.Unplaced "" :=
  fun h => h.1 rfl

theorem Highlighter.unplaced_of_error {h : Highlighter} {tree : Tree} {text : String}
    {error : Text.OffsetError} (failed : (h.setTree tree text).2 = some error) :
    tree.Unplaced text := by
  have not_taken : ¬(h.setTree tree text).2 = none := by simp [failed]
  rw [h.setTree_no_error_iff] at not_taken
  push Not at not_taken
  exact not_taken

namespace Editor

/-- An editor without all that painting changes. -/
def unpainted (e : Editor) : Editor :=
  { e with
    document := .ofText e.document.text
    behaviors := e.behaviors.map fun b => { b with highlighter := none } }

variable (e : Editor)

@[simp] theorem unpainted_rehighlight (p : Painter) :
    (e.rehighlight p).unpainted = e.unpainted := rfl

@[simp] theorem unpainted_rehighlightAll : e.rehighlightAll.unpainted = e.unpainted := by
  suffices h : ∀ (painters : List Painter) (e' : Editor), e'.unpainted = e.unpainted →
      (painters.foldl rehighlight e').unpainted = e.unpainted from h _ e rfl
  intro painters
  induction painters with
  | nil => exact fun _ h => h
  | cons p painters ih => exact fun e' h => ih _ ((unpainted_rehighlight e' p).trans h)

@[simp] theorem unpainted_setHighlighter (id : Nat) (h : Option Highlighter) :
    (e.setHighlighter id h).unpainted = e.unpainted := by
  have same : (e.setHighlighter id h).behaviors.map (fun b => { b with highlighter := none }) =
      e.behaviors.map fun b => { b with highlighter := none } := by
    show (e.behaviors.modify id _).map _ = _
    -- Only the highlighter of one behavior differs, and all highlighters are left out.
    rw [map_modify]
    exact fun _ => rfl
  unfold unpainted
  rw [same]
  rfl

@[simp] theorem unpainted_attach (p : Painter) : (e.attach p).unpainted = e.unpainted := rfl

@[simp] theorem unpainted_detachHighlighter (id : Nat) :
    (e.detachHighlighter id).unpainted = e.unpainted := by
  unfold detachHighlighter
  split <;> rfl

@[simp] theorem behaviors_detachHighlighter (id : Nat) :
    (e.detachHighlighter id).behaviors = e.behaviors := by
  unfold detachHighlighter
  split <;> rfl

/-- An operation broke off while the tree was shown, as the text has no place for it. -/
structure Stuck (e : Editor) (error : EditorError) : Prop where
  /-- Some range of the tree was not found in the text. -/
  cause : ∃ cause, error = .offset cause
  /-- The text has no place for the tree. -/
  unplaced : e.tree.tree.Unplaced e.parsedText

theorem runOn_showTree (id : Nat) :
    (showTree id).runOn e =
      match e.highlighter? id with
      | none => (.ok (), e)
      | some h =>
        let shown := e.setHighlighter id (h.setTree e.tree.tree e.parsedText).1
        match (h.setTree e.tree.tree e.parsedText).2 with
        | some error => (.error (.offset error), shown)
        | none => (.ok (), shown.rehighlight (.behavior id)) := by
  unfold showTree
  rw [Editing.runOn_get_bind]
  rcases e.highlighter? id with _ | h
  · rfl
  · dsimp only
    rw [Editing.runOn_set_bind]
    cases (h.setTree e.tree.tree e.parsedText).2 <;> rfl

/-- To show a tree by a highlighter is painting.  It breaks off only if the text has no place for
    the tree. -/
theorem ends_showTree (id : Nat) :
    (showTree id).Ends e (fun _ e' => e'.unpainted = e.unpainted) fun error e' =>
      e'.unpainted = e.unpainted ∧ e'.Stuck error := by
  unfold Editing.Ends
  rw [runOn_showTree]
  rcases e.highlighter? id with _ | h
  · exact rfl
  · dsimp only
    rcases taken : (h.setTree e.tree.tree e.parsedText).2 with _ | error
    · simp
    · exact ⟨by simp, ⟨error, rfl⟩, Highlighter.unplaced_of_error taken⟩

/-- So is to show it by all highlighters that follow it. -/
theorem ends_showTrees :
    showTrees.Ends e (fun _ e' => e'.unpainted = e.unpainted) fun error e' =>
      e'.unpainted = e.unpainted ∧ e'.Stuck error := by
  show (e.treeFollowers.forM showTree).Ends e _ _
  refine Editing.ends_forM (fun id _ e' same => ?_) rfl
  exact (e'.ends_showTree id).imp (fun _ _ h => h.trans same) fun _ _ h => ⟨h.1.trans same, h.2⟩

/-- The editor with new highlights for a behavior.  The old highlighter goes and a new one comes, if
    there is one for the highlights. -/
def withHighlights (e : Editor) (id : Nat) (v : Value) : Editor :=
  let e := (e.updateBehavior id fun b => { b with highlights := v }).detachHighlighter id
  match e.highlighterFor v with
  | none => e.setHighlighter id none
  | some h => (e.setHighlighter id h).attach (.behavior id)

@[simp] theorem unpainted_withHighlights (id : Nat) (v : Value) :
    (e.withHighlights id v).unpainted =
      (e.updateBehavior id fun b => { b with highlights := v }).unpainted := by
  unfold withHighlights
  dsimp only
  split <;> simp

theorem runOn_setHighlights (id : Nat) (v : Value) :
    (setHighlights id v).runOn e = (showTree id).runOn (e.withHighlights id v) := rfl

/-- A behavior takes new highlights: all else is painting. -/
theorem ends_setHighlights (id : Nat) (v : Value) :
    (setHighlights id v).Ends e
      (fun _ e' => e'.unpainted =
        (e.updateBehavior id fun b => { b with highlights := v }).unpainted)
      (fun error e' => e'.unpainted =
        (e.updateBehavior id fun b => { b with highlights := v }).unpainted ∧ e'.Stuck error) := by
  have same := e.unpainted_withHighlights id v
  refine Editing.Ends.of_runOn_eq ?_ (e.runOn_setHighlights id v)
  exact ((e.withHighlights id v).ends_showTree id).imp (fun _ _ h => h.trans same)
    fun _ _ h => ⟨h.1.trans same, h.2⟩

/-! ### Passes -/

/-- The pass that an editor would ask for now. -/
def inquiry : Inquiry := ⟨e.adapter, e.descriptors, e.document.text⟩

/-- The editor as those who follow the tree see it after a pass with an outcome. -/
def passed (o : Outcome) : Editor :=
  { e with
    parsedText := e.document.text
    adapter := e.inquiry.pass.adapter
    descriptors := e.inquiry.pass.descriptors
    inquiries := e.inquiries ++ [e.inquiry]
    tree := o.snapshot
    lastOutcome := some o
    activity.log := e.activity.log ++ e.inquiry.pass.log
    activity.published := e.activity.published ++ [o.snapshot]
    activity.outcomes := e.activity.outcomes + 1 }

variable {e}
variable (announce : Editing Unit)

/-- Nothing comes of a text that is that of the last pass. -/
theorem runOn_reparse_of_same (same : e.document.text = e.parsedText) :
    (reparse false announce).runOn e = (.ok (), e) := by
  have skipped : (decide (e.document.text = e.parsedText) && !false) = true := by simp [same]
  unfold reparse
  rw [Editing.runOn_get_bind]
  dsimp only
  rw [if_pos skipped]
  rfl

/-- Otherwise there is one pass, and who follows the tree is told of it once, when all is done. -/
theorem runOn_reparse {force : Bool} (due : force = true ∨ e.document.text ≠ e.parsedText)
    {o : Outcome} (returned : e.inquiry.pass.result = .ok o) :
    (reparse force announce).runOn e = announce.runOn (e.passed o) := by
  have not_skipped : ¬(decide (e.document.text = e.parsedText) && !force) = true := by
    rcases due with rfl | h <;> simp [*]
  unfold reparse
  rw [Editing.runOn_get_bind]
  dsimp only
  rw [if_neg not_skipped, Editing.runOn_set_bind,
    show (Inquiry.mk e.adapter e.descriptors e.document.text).pass.result = .ok o from returned]
  rfl

/-- A pass that is interrupted is made known to nobody. -/
theorem runOn_reparse_of_interrupted {force : Bool}
    (due : force = true ∨ e.document.text ≠ e.parsedText) {interrupt : Interrupt}
    (interrupted : e.inquiry.pass.result = .error interrupt) :
    ∃ e', (reparse force announce).runOn e = (.error (.interrupted interrupt), e') := by
  have not_skipped : ¬(decide (e.document.text = e.parsedText) && !force) = true := by
    rcases due with rfl | h <;> simp [*]
  unfold reparse
  rw [Editing.runOn_get_bind]
  dsimp only
  rw [if_neg not_skipped, Editing.runOn_set_bind,
    show (Inquiry.mk e.adapter e.descriptors e.document.text).pass.result = .error interrupt from
      interrupted]
  exact ⟨_, rfl⟩

/-! ### Texts and options -/

theorem runOn_setText (text : String) :
    (setText text announce).runOn e =
      (reparse false announce).runOn
        ({ e with document := e.document.setText text } : Editor).rehighlightAll := rfl

/-- The editor with a new adapter for a parser. -/
def withParser (e : Editor) (parser keepLastGood : Setting) : Editor :=
  { e with
    adapter :=
      { parser := parser.toParser
        keepLastGood := keepLastGood.holds
        revision := e.adapter.revision }
    activity.adapters := e.activity.adapters + 1 }

theorem runOn_setting_eq (key : String) :
    (setting key).runOn e =
      ((e.options.get? key).elim (.error (.missingKey ⟨key⟩)) .ok, e) := by
  unfold setting
  rw [Editing.runOn_get_bind, Options.get]
  cases e.options.get? key <;> rfl

theorem runOn_setting {key : String} {s : Setting} (h : e.options.get? key = some s) :
    (setting key).runOn e = (.ok s, e) := by
  rw [runOn_setting_eq, h]
  rfl

theorem runOn_setting_of_none {key : String} (h : e.options.get? key = none) :
    (setting key).runOn e = (.error (.missingKey ⟨key⟩), e) := by
  rw [runOn_setting_eq, h]
  rfl

/-- What has been taken over of the colors stays, even if one of them is missing. -/
theorem runOn_setColors (colors : Setting) :
    (setColors colors).runOn e =
      ((e.palette.setColors colors.value).2.elim (.ok ()) fun error => .error (.missingKey error),
        { e with palette := (e.palette.setColors colors.value).1 }) := by
  unfold setColors
  rw [Editing.runOn_get_bind]
  rcases e.palette.setColors colors.value with ⟨palette, _ | error⟩ <;> rfl

theorem ends_setting (key : String) :
    (setting key).Ends e (fun _ e' => e' = e) fun _ e' => e' = e := by
  rcases h : e.options.get? key with _ | s
  · exact Editing.ends_iff.mpr (.inr ⟨_, e, runOn_setting_of_none h, rfl⟩)
  · exact Editing.ends_of_runOn (runOn_setting h) rfl

/-- To read the font again changes nothing else. -/
theorem ends_readFont (keys : List String) :
    (readFont keys).Ends e (fun _ e' => ∃ font, e' = { e with font }) fun _ e' => e' = e := by
  unfold readFont
  split
  · refine (ends_setting "font").bind ?_
    rintro s e rfl
    exact ⟨some s.value, rfl⟩
  · exact ⟨e.font, rfl⟩

/-- To read the colors again changes nothing else. -/
theorem ends_readColors (keys : List String) :
    (readColors keys).Ends e (fun _ e' => ∃ palette, e' = { e with palette })
      fun _ e' => ∃ palette, e' = { e with palette } := by
  unfold readColors
  split
  · refine ((ends_setting "colors").imp (fun _ _ h => h) ?_).bind ?_
    · rintro _ _ rfl
      exact ⟨_, rfl⟩
    · rintro s e rfl
      unfold Editing.Ends
      rw [runOn_setColors]
      cases (e.palette.setColors s.value).2 <;> exact ⟨_, rfl⟩
  · exact ⟨e.palette, rfl⟩

/-- The keys of the settings that the editor makes its adapter of. -/
def ParserKey (key : String) : Prop :=
  key = "parse_source" ∨ key = "keep_last_good"

theorem exists_parserKey_iff {keys : List String} :
    (∃ key ∈ keys, ParserKey key) ↔ "parse_source" ∈ keys ∨ "keep_last_good" ∈ keys := by
  constructor
  · rintro ⟨key, hkey, rfl | rfl⟩
    · exact .inl hkey
    · exact .inr hkey
  · rintro (h | h)
    · exact ⟨_, h, .inl rfl⟩
    · exact ⟨_, h, .inr rfl⟩

theorem runOn_readParser {keys : List String} (named : ∃ key ∈ keys, ParserKey key)
    {parser keepLastGood : Setting} (hparser : e.options.get? "parse_source" = some parser)
    (hkeep : e.options.get? "keep_last_good" = some keepLastGood) :
    (readParser keys announce).runOn e =
      (reparse true announce).runOn (e.withParser parser keepLastGood) := by
  unfold readParser
  rw [if_pos (exists_parserKey_iff.mp named), Editing.runOn_bind, runOn_setting hparser]
  show (setting "keep_last_good" >>= fun k => setParser parser k announce).runOn e = _
  rw [Editing.runOn_bind, runOn_setting hkeep]
  rfl

theorem idle_readParser {keys : List String} (unnamed : ¬∃ key ∈ keys, ParserKey key) :
    (readParser keys announce).Idle := by
  intro e
  unfold readParser
  rw [if_neg fun h => unnamed (exists_parserKey_iff.mpr h)]
  rfl

theorem idle_tell_behavior {keys : List String} (unnamed : "highlights" ∉ keys) (id : Nat) :
    (tell keys announce (.behavior id)).Idle := by
  intro e
  show (ite _ _ _ : Editing Unit).runOn e = _
  rw [if_neg fun h => unnamed h.1]
  rfl

theorem idle_tell_behaviors {keys : List String} (unnamed : "highlights" ∉ keys)
    (ids : List Nat) : ((ids.map OptionFollower.behavior).forM (tell keys announce)).Idle := by
  refine Editing.Idle.forM fun follower member => ?_
  obtain ⟨id, -, rfl⟩ := List.mem_map.mp member
  exact idle_tell_behavior announce unnamed id

/-- A change of options is told to all who follow them. -/
theorem runOn_changeOptions {change : OptionChange Setting} {keys : List String}
    (made : change.error = none) (announced : change.announced = some keys) :
    (changeOptions change announce).runOn e =
      (e.optionFollowers.forM (tell keys announce)).runOn { e with options := change.options } := by
  unfold changeOptions
  rw [made, announced]
  rfl

theorem runOn_changeOptions_of_none {change : OptionChange Setting} (made : change.error = none)
    (silent : change.announced = none) :
    (changeOptions change announce).runOn e = (.ok (), { e with options := change.options }) := by
  unfold changeOptions
  rw [made, silent]
  rfl

/-- Nobody is told of a change that breaks off. -/
theorem runOn_changeOptions_of_some {change : OptionChange Setting} {error : MissingKey}
    (off : change.error = some error) :
    (changeOptions change announce).runOn e =
      (.error (.missingKey error), { e with options := change.options }) := by
  unfold changeOptions
  rw [off]
  rfl

/-- The editor comes first and is no behavior, so it is one of the behaviors that leaves. -/
theorem erase_behavior (ids : List Nat) (id : Nat) :
    (OptionFollower.editor :: ids.map .behavior).erase (.behavior id) =
      .editor :: (ids.erase id).map .behavior := by
  have others : ¬(OptionFollower.editor == .behavior id) = true := by simp
  rw [List.erase_cons, if_neg others, List.map_erase]
  exact fun a b h => OptionFollower.behavior.inj h

/-! ### Moves -/

/-- What can be done with an editor. -/
inductive Move where
  /-- The text is replaced. -/
  | edit (text : String)
  /-- The contents are reported as changed. -/
  | report
  /-- A pass is forced. -/
  | force
  /-- Several options are set. -/
  | update (values : Table Setting)
  /-- Options fall back to their defaults. -/
  | reset (keys : List String)

/-- Makes a move, where making a tree known leads to an action. -/
def Move.perform (announce : Editing Unit) : Move → Editing Unit
  | edit text => setText text announce
  | report => reparse false announce
  | force => reparse true announce
  | update values => updateOptions values announce
  | reset keys => resetOptions keys announce

/-- The text after a move. -/
def Move.text (text : String) : Move → String
  | edit new => new
  | report | force | update _ | reset _ => text

/-- The options after a move. -/
def Move.options (o : Options Setting) : Move → Options Setting
  | edit _ | report | force => o
  | update values => (o.update values).options
  | reset keys => (o.reset keys).options

theorem runOn_update (values : Table Setting) :
    (Move.perform announce (.update values)).runOn e =
      (changeOptions (e.options.update values) announce).runOn e := rfl

theorem runOn_reset (keys : List String) :
    (Move.perform announce (.reset keys)).runOn e =
      (changeOptions (e.options.reset keys) announce).runOn e := rfl

/-- A new editor has read all its settings. -/
theorem new_of_runOn {options : Options Setting} {ds : Descriptors}
    {result : Except EditorError Unit}
    (run : (readOptions options.keys).runOn { options, descriptors := ds } = (result, e)) :
    Editor.new options ds = result.map fun _ => { e with activity := {} } := by
  have unfolded : Editor.new options ds =
      (fun ended : Except EditorError Unit × Editor =>
        ended.1.map fun _ => { ended.2 with activity := {} })
        ((readOptions options.keys).runOn { options, descriptors := ds }) := rfl
  rw [unfolded, run]

end Editor

/-- A parser that is never interrupted: all that can go wrong in it is a failure. -/
def Parser.Steady (p : Parser) : Prop :=
  ∀ text message, p.run text ≠ .interrupted message

theorem Parser.steady_lyql : Parser.lyql.Steady := by
  intro text message
  unfold lyql
  dsimp only
  cases Lexical.tokenize text <;> simp

/-- A pass with a parser that is never interrupted has an outcome. -/
theorem Adapter.exists_outcome {a : Adapter} (steady : a.parser.Steady) (ds : Descriptors)
    (text : String) : ∃ o, (a.attempt ds text).result = .ok o := by
  rcases a.attempt_cases ds text with
    ⟨-, h⟩ | ⟨-, message, interrupted, -⟩ | ⟨-, e, after, -, h⟩ | ⟨-, tree, after, -, h⟩
  · exact ⟨_, by rw [h]; rfl⟩
  · exact absurd interrupted (steady text message)
  · exact ⟨_, by rw [h]⟩
  · exact ⟨_, by rw [h]⟩

end LyqlHighlight
