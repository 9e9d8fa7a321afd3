import LyqlHighlight.Proofs.Editing
import LyqlHighlight.Proofs.OptionChanges

namespace LyqlHighlight

/-!
# Editors in step with their options

An editor and its highlighting behavior read their settings again whenever the options change.  As
long as the settings fit their keys, each move leaves them in step with the options, with two
exceptions: a reset that drops the font, for which there is no default, breaks off before anything
is read again; and a tree that the text has no place for breaks off while it is shown.

* `Setting.Fits`, `Options.Fit` — settings of the kind that belongs under a key;
* `Editor.Wired`, `Editor.InStep` — who follows what, and what following leads to;
* `Editor.ends_reparse`, `Editor.ends_readOptions`, `Editor.ends_tellAll` — what passes keep, and
  what reading settings again leads to;
* `Editor.inStep_run` — the main result.
-/

/-! ### Settings that fit their keys -/

/-- A setting is of the kind that belongs under a key. -/
structure Setting.Fits (key : String) (s : Setting) : Prop where
  /-- A parser that is never interrupted. -/
  parser : key = "parse_source" → ∃ p, s = .parser p ∧ p.Steady
  /-- A flag. -/
  flag : key = "keep_last_good" → ∃ b, s = .plain (.bool b)
  /-- No highlights, or a spec for each of some style classes. -/
  specs : key = "highlights" → s = .plain .none ∨
    ∃ specs, s = .plain (.mapping specs) ∧ ∀ spec ∈ specs, ∃ fields, spec.2 = .mapping fields
  /-- The colors of an editor. -/
  colors : key = "colors" → ∃ colors bg fg, s = .plain colors ∧
    colors.field? "bg" = some bg ∧ colors.field? "fg" = some fg

/-- All settings of a table fit their keys. -/
def Table.Fit (t : Table Setting) : Prop :=
  ∀ key s, t.get? key = some s → s.Fits key

theorem Table.fit_empty : (Table.empty : Table Setting).Fit := nofun

theorem Table.Fit.insert {t : Table Setting} (fit : t.Fit) {key : String} {s : Setting}
    (fits : s.Fits key) : (t.insert key s).Fit := by
  intro k s' h
  rw [get?_insert] at h
  split at h
  · subst k
    obtain rfl := Option.some.inj h
    exact fits
  · exact fit k s' h

theorem Setting.fit_defaults : defaults.Fit := by
  have source : (parser .lyql).Fits "parse_source" :=
    ⟨fun _ => ⟨.lyql, rfl, Parser.steady_lyql⟩, nofun, nofun, nofun⟩
  have flag : (plain (.bool false)).Fits "keep_last_good" :=
    ⟨nofun, fun _ => ⟨false, rfl⟩, nofun, nofun⟩
  have specs : (plain lyqlSpecs).Fits "highlights" := by
    refine ⟨nofun, nofun, fun _ => .inr ⟨_, rfl, ?_⟩, nofun⟩
    simp [colorSpec]
  have colors : (plain plainColors).Fits "colors" :=
    ⟨nofun, nofun, nofun, fun _ => ⟨plainColors, _, _, rfl, rfl, rfl⟩⟩
  exact (((Table.fit_empty.insert source).insert flag).insert specs).insert colors

namespace Options

/-- The options start from the defaults of every editor, and what has been set fits. -/
structure Fit (o : Options Setting) : Prop where
  /-- The options start from the defaults of every editor. -/
  defaults : o.defaults = Setting.defaults
  /-- What has been set fits. -/
  overrides : o.overrides.Fit

variable {o : Options Setting}

theorem Fit.fits (h : o.Fit) {key : String} {s : Setting} (hs : o.get? key = some s) :
    s.Fits key := by
  rw [get?, h.defaults] at hs
  rcases set : o.overrides.get? key with _ | s'
  · rw [set] at hs
    exact Setting.fit_defaults key s hs
  · rw [set] at hs
    exact h.overrides key s (set.trans hs)

theorem Fit.exists_parser (h : o.Fit) :
    ∃ p : Parser, o.get? "parse_source" = some (.parser p) ∧ p.Steady := by
  obtain ⟨s, hs⟩ := exists_get?_of_mem h.defaults "parse_source" (by decide)
  obtain ⟨p, rfl, steady⟩ := (h.fits hs).parser rfl
  exact ⟨p, hs, steady⟩

theorem Fit.exists_flag (h : o.Fit) : ∃ b, o.get? "keep_last_good" = some (.plain (.bool b)) := by
  obtain ⟨s, hs⟩ := exists_get?_of_mem h.defaults "keep_last_good" (by decide)
  obtain ⟨b, rfl⟩ := (h.fits hs).flag rfl
  exact ⟨b, hs⟩

theorem Fit.exists_colors (h : o.Fit) : ∃ colors bg fg, o.get? "colors" = some (.plain colors) ∧
    colors.field? "bg" = some bg ∧ colors.field? "fg" = some fg := by
  obtain ⟨s, hs⟩ := exists_get?_of_mem h.defaults "colors" (by decide)
  obtain ⟨colors, bg, fg, rfl, hbg, hfg⟩ := (h.fits hs).colors rfl
  exact ⟨colors, bg, fg, hs, hbg, hfg⟩

theorem Fit.update (h : o.Fit) {values : Table Setting} (fit : values.Fit) :
    (o.update values).options.Fit := by
  refine ⟨h.defaults, fun key s hs => ?_⟩
  have reads : (values.get? key).or (o.overrides.get? key) = some s := by
    rw [← Table.get?_merge]
    exact hs
  rcases set : values.get? key with _ | s'
  · rw [set] at reads
    exact h.overrides key s reads
  · rw [set] at reads
    exact fit key s (set.trans reads)

theorem Fit.reset (h : o.Fit) {keys : List String} (distinct : keys.Nodup) :
    (o.reset keys).options.Fit := by
  have spec := o.reset_spec (o.nodup_dropped distinct)
  refine ⟨spec.defaults.trans h.defaults, fun key s hs => ?_⟩
  rw [spec.overrides] at hs
  split at hs
  · cases hs
  · exact h.overrides key s hs

end Options

namespace Editor

/-! ### What stays as it is -/

/-- What an editor is set up with: no pass and no painting changes it. -/
structure Setup where
  /-- The text. -/
  text : String
  /-- The options. -/
  options : Options Setting
  /-- Those who follow the options. -/
  optionFollowers : List OptionFollower
  /-- The kinds of the behaviors, and the highlights that they were last given. -/
  behaviors : List (BehaviorKind × Value)
  /-- The numbers of the behaviors that are held. -/
  held : List Nat

/-- What an editor is set up with. -/
def setup (e : Editor) : Setup where
  text := e.document.text
  options := e.options
  optionFollowers := e.optionFollowers
  behaviors := e.behaviors.map fun b => (b.kind, b.highlights)
  held := e.held

variable {e e' : Editor}

theorem setup_of_unpainted (same : e'.unpainted = e.unpainted) : e'.setup = e.setup := by
  have forget : ∀ e : Editor, e.unpainted.setup = e.setup := by
    intro e
    simp [setup, unpainted, Function.comp_def, Document.ofText]
  rw [← forget e', same, forget]

/-- The adapter uses the parser and the flag that the options read as. -/
structure ReadsParser (e : Editor) : Prop where
  /-- The parser. -/
  parser : e.options.get? "parse_source" = some (.parser e.adapter.parser)
  /-- Whether the last good tree is kept. -/
  flag : e.options.get? "keep_last_good" = some (.plain (.bool e.adapter.keepLastGood))

theorem ReadsParser.of_unpainted (h : e.ReadsParser) (same : e'.unpainted = e.unpainted) :
    e'.ReadsParser := by
  have forget : ∀ e : Editor, e.ReadsParser ↔ e.unpainted.ReadsParser :=
    fun _ => ⟨fun h => ⟨h.parser, h.flag⟩, fun h => ⟨h.parser, h.flag⟩⟩
  rw [forget, same, ← forget]
  exact h

/-- The first behavior has the highlights that the options read as. -/
def ReadsHighlights (e : Editor) : Prop :=
  e.behaviors[0]?.map Behavior.highlights = some e.highlights

theorem ReadsHighlights.of_setup (h : e.ReadsHighlights) (same : e'.setup = e.setup) :
    e'.ReadsHighlights := by
  have given : ∀ e : Editor, e.behaviors[0]?.map Behavior.highlights =
      e.setup.behaviors[0]?.map Prod.snd := by
    intro e
    simp [setup, Function.comp_def]
  have read : e'.highlights = e.highlights := by
    unfold highlights
    rw [show e'.options = e.options from congrArg Setup.options same]
  rw [ReadsHighlights, given, same, ← given, read]
  exact h

/-- What a pass, or the lack of one, leaves behind. -/
structure Reparsed (e e' : Editor) : Prop where
  /-- The setup stays. -/
  setup : e'.setup = e.setup
  /-- The last pass was over the text of the document. -/
  current : e'.parsedText = e'.document.text
  /-- The parser stays. -/
  parser : e'.adapter.parser = e.adapter.parser
  /-- Whether the last good tree is kept, stays. -/
  flag : e'.adapter.keepLastGood = e.adapter.keepLastGood

/-- What is left when an operation breaks off at a tree that the text has no place for. -/
structure BrokenOff (text : String) (options : Options Setting) (error : EditorError)
    (e : Editor) : Prop where
  /-- The text. -/
  text : e.document.text = text
  /-- The options. -/
  options : e.options = options
  /-- The last pass was over the text of the document. -/
  current : e.parsedText = e.document.text
  /-- The text has no place for the tree. -/
  stuck : e.Stuck error

/-- In an empty text every tree has its place. -/
theorem not_brokenOff_empty {options : Options Setting} {error : EditorError} :
    ¬BrokenOff "" options error e := by
  intro off
  have unplaced := off.stuck.unplaced
  rw [off.current, off.text] at unplaced
  exact Tree.not_unplaced_empty _ unplaced

theorem ReadsParser.of_reparsed (h : e.ReadsParser) (pass : e.Reparsed e') : e'.ReadsParser := by
  have options : e'.options = e.options := congrArg Setup.options pass.setup
  exact ⟨by rw [options, pass.parser]; exact h.parser, by rw [options, pass.flag]; exact h.flag⟩

/-- A pass keeps the setup and the settings of the adapter. -/
theorem ends_reparse {force : Bool} (steady : e.adapter.parser.Steady) :
    (reparse force showTrees).Ends e (fun _ e' => e.Reparsed e')
      (BrokenOff e.document.text e.options) := by
  by_cases due : force = true ∨ e.document.text ≠ e.parsedText
  · obtain ⟨o, returned⟩ := Adapter.exists_outcome steady e.descriptors e.document.text
    refine Editing.Ends.of_runOn_eq ?_ (runOn_reparse showTrees due returned)
    -- To show the tree is painting, which changes neither the text nor what counts as parsed.
    have current : ∀ {e' : Editor}, e'.unpainted = (e.passed o).unpainted →
        e'.parsedText = e'.document.text := by
      intro e' same
      have parsed := congrArg Editor.parsedText same
      exact parsed.trans (congrArg (fun e => e.document.text) same).symm
    refine (ends_showTrees (e.passed o)).imp (fun _ e' same => ?_) ?_
    · obtain ⟨parser, -, flag⟩ := e.adapter.settings_attempt e.descriptors e.document.text
      have setup := setup_of_unpainted same
      have adapter := congrArg Editor.adapter same
      refine ⟨setup, current same, ?_, ?_⟩
      · exact (congrArg Adapter.parser adapter).trans parser
      · exact (congrArg Adapter.keepLastGood adapter).trans flag
    · rintro error e' ⟨same, stuck⟩
      have setup := setup_of_unpainted same
      exact ⟨congrArg Setup.text setup, congrArg Setup.options setup, current same, stuck⟩
  · push Not at due
    obtain ⟨unforced, same⟩ := due
    obtain rfl : force = false := by simpa using unforced
    exact Editing.ends_of_runOn (runOn_reparse_of_same showTrees same) ⟨rfl, same.symm, rfl, rfl⟩

/-! ### Reading settings again -/

theorem runOn_readFont {keys : List String}
    (present : "font" ∈ keys → ∃ s, e.options.get? "font" = some s) :
    ∃ font, (readFont keys).runOn e = (.ok (), { e with font }) := by
  unfold readFont
  split
  · next named =>
    obtain ⟨s, hs⟩ := present named
    refine ⟨some s.value, ?_⟩
    rw [Editing.runOn_bind, runOn_setting hs]
    rfl
  · exact ⟨e.font, rfl⟩

/-- There is no default for the font. -/
theorem runOn_readFont_of_none {keys : List String} (named : "font" ∈ keys)
    (missing : e.options.get? "font" = none) :
    (readFont keys).runOn e = (.error (.missingKey ⟨"font"⟩), e) := by
  unfold readFont
  rw [if_pos named, Editing.runOn_bind, runOn_setting_of_none missing]

theorem runOn_readColors (keys : List String) (fit : e.options.Fit) :
    ∃ palette, (readColors keys).runOn e = (.ok (), { e with palette }) := by
  unfold readColors
  split
  · obtain ⟨colors, bg, fg, hs, hbg, hfg⟩ := fit.exists_colors
    have taken : e.palette.setColors colors =
        ({ e.palette with base := bg, window := bg, text := fg }, none) := by
      simp [Palette.setColors, hbg, hfg]
    refine ⟨{ e.palette with base := bg, window := bg, text := fg }, ?_⟩
    rw [Editing.runOn_bind, runOn_setting hs]
    show (setColors (.plain colors)).runOn e = _
    rw [runOn_setColors, show (Setting.plain colors).value = colors from rfl, taken]
    rfl
  · exact ⟨e.palette, rfl⟩

/-- What reading settings again leads to, for the editor itself. -/
structure Reread (e e' : Editor) : Prop where
  /-- The setup stays. -/
  setup : e'.setup = e.setup
  /-- The last pass was over the text of the document. -/
  current : e'.parsedText = e'.document.text
  /-- The adapter uses the parser and the flag that the options read as. -/
  adapter : e'.ReadsParser

theorem ends_readParser {keys : List String} (fit : e.options.Fit)
    (current : e.parsedText = e.document.text)
    (stale : (∃ key ∈ keys, ParserKey key) ∨ e.ReadsParser) :
    (readParser keys showTrees).Ends e (fun _ e' => e.Reread e')
      (BrokenOff e.document.text e.options) := by
  by_cases named : ∃ key ∈ keys, ParserKey key
  · obtain ⟨p, hparser, steady⟩ := fit.exists_parser
    obtain ⟨b, hflag⟩ := fit.exists_flag
    let before := e.withParser (.parser p) (.plain (.bool b))
    have read : before.ReadsParser := ⟨hparser, hflag⟩
    refine Editing.Ends.of_runOn_eq ?_ (runOn_readParser showTrees named hparser hflag)
    refine (ends_reparse (e := before) steady).imp (fun _ e' pass => ?_) fun _ _ off => off
    exact ⟨pass.setup, pass.current, read.of_reparsed pass⟩
  · exact Editing.ends_of_runOn (idle_readParser showTrees named e)
      ⟨rfl, current, stale.resolve_left named⟩

/-- The editor reads its settings again. -/
theorem ends_readOptions {keys : List String} (fit : e.options.Fit)
    (current : e.parsedText = e.document.text)
    (present : "font" ∈ keys → ∃ s, e.options.get? "font" = some s)
    (stale : (∃ key ∈ keys, ParserKey key) ∨ e.ReadsParser) :
    (readOptions keys showTrees).Ends e (fun _ e' => e.Reread e')
      (BrokenOff e.document.text e.options) := by
  obtain ⟨font, hfont⟩ := runOn_readFont present
  obtain ⟨palette, hcolors⟩ := runOn_readColors (e := { e with font }) keys fit
  -- Neither the font nor the colors matter to the adapter.
  have stale : (∃ key ∈ keys, ParserKey key) ∨ { e with font, palette }.ReadsParser :=
    stale.imp_right fun read => ⟨read.parser, read.flag⟩
  unfold readOptions
  refine Editing.Ends.after (Editing.Ends.after ?_ hcolors) hfont
  exact (ends_readParser (e := { e with font, palette }) fit current stale).imp
    (fun _ _ read => ⟨read.setup, read.current, read.adapter⟩) fun _ _ off => off

/-! ### Those who follow the options -/

/-- The editor and one highlighting behavior follow the options, and all settings fit. -/
structure Wired (e : Editor) : Prop where
  /-- The settings fit. -/
  fit : e.options.Fit
  /-- The editor reads its settings before the behavior does. -/
  optionFollowers : e.optionFollowers = [.editor, .behavior 0]
  /-- The behavior is highlighting. -/
  kinds : e.behaviors.map Behavior.kind = [.highlighting]

theorem Wired.of_setup (h : e.Wired) (same : e'.setup = e.setup) : e'.Wired := by
  have kinds : ∀ e : Editor, e.behaviors.map Behavior.kind = e.setup.behaviors.map Prod.fst := by
    intro e
    simp [setup, Function.comp_def]
  refine ⟨?_, (congrArg Setup.optionFollowers same).trans h.optionFollowers, ?_⟩
  · rw [show e'.options = e.options from congrArg Setup.options same]
    exact h.fit
  · rw [kinds, same, ← kinds]
    exact h.kinds

theorem Wired.exists_behavior (h : e.Wired) :
    ∃ b, e.behaviors = [b] ∧ b.kind = .highlighting := by
  obtain ⟨b, rest, behaviors, kind, nothing⟩ := List.map_eq_cons_iff.mp h.kinds
  obtain rfl : rest = [] := by simpa using nothing
  exact ⟨b, behaviors, kind⟩

/-- An editor and its behavior use the settings that the options read as. -/
structure InStep (e : Editor) : Prop where
  /-- The adapter uses the parser and the flag that the options read as. -/
  adapter : e.ReadsParser
  /-- The behavior has the highlights that the options read as. -/
  highlights : e.ReadsHighlights

/-- What an operation that is done leaves behind, with some text and options. -/
structure Synced (text : String) (options : Options Setting) (e : Editor) : Prop
    extends e.Wired, e.InStep where
  /-- The text. -/
  text : e.document.text = text
  /-- The options. -/
  options : e.options = options
  /-- The last pass was over the text of the document. -/
  current : e.parsedText = e.document.text

/-- The behavior takes the highlights that the options read as. -/
theorem ends_setHighlights_of_wired (wired : e.Wired) (read : e.ReadsParser)
    (current : e.parsedText = e.document.text) :
    (setHighlights 0 e.highlights).Ends e (fun _ => Synced e.document.text e.options)
      (BrokenOff e.document.text e.options) := by
  obtain ⟨b, behaviors, highlighting⟩ := wired.exists_behavior
  let given := e.updateBehavior 0 fun b => { b with highlights := e.highlights }
  have behaviors' : given.behaviors = [{ b with highlights := e.highlights }] := by
    show e.behaviors.modify 0 _ = _
    rw [behaviors]
    rfl
  have wired' : given.Wired := by
    refine ⟨wired.fit, wired.optionFollowers, ?_⟩
    rw [behaviors']
    exact congrArg (fun kind => [kind]) highlighting
  have read' : given.ReadsParser := ⟨read.parser, read.flag⟩
  have highlights' : given.ReadsHighlights := by
    unfold ReadsHighlights
    rw [behaviors']
    rfl
  refine (ends_setHighlights e 0 e.highlights).imp (fun _ e' same => ?_) ?_
  · have setup := setup_of_unpainted same
    have text := congrArg Setup.text setup
    have parsed := congrArg Editor.parsedText same
    exact ⟨wired'.of_setup setup, ⟨read'.of_unpainted same, highlights'.of_setup setup⟩, text,
      congrArg Setup.options setup, parsed.trans (current.trans text.symm)⟩
  · rintro error e' ⟨same, stuck⟩
    have setup := setup_of_unpainted same
    have parsed := congrArg Editor.parsedText same
    have text := congrArg Setup.text setup
    exact ⟨text, congrArg Setup.options setup, parsed.trans (current.trans text.symm), stuck⟩

/-- The behavior reads its highlights again. -/
theorem ends_tell_behavior {keys : List String} (announce : Editing Unit) (wired : e.Wired)
    (read : e.ReadsParser) (current : e.parsedText = e.document.text)
    (stale : "highlights" ∈ keys ∨ e.ReadsHighlights) :
    (tell keys announce (.behavior 0)).Ends e (fun _ => Synced e.document.text e.options)
      (BrokenOff e.document.text e.options) := by
  obtain ⟨b, behaviors, highlighting⟩ := wired.exists_behavior
  have follows : e.behaviors[0]?.any (·.kind = .highlighting) = true := by
    simp [behaviors, highlighting]
  by_cases named : "highlights" ∈ keys
  · have run : (tell keys announce (.behavior 0)).runOn e =
        (setHighlights 0 e.highlights).runOn e := by
      show (ite _ _ _ : Editing Unit).runOn e = _
      rw [if_pos ⟨named, follows⟩]
    exact (ends_setHighlights_of_wired wired read current).of_runOn_eq run
  · exact Editing.ends_of_runOn (idle_tell_behavior announce named 0 e)
      ⟨wired, ⟨read, stale.resolve_left named⟩, rfl, rfl, current⟩

/-- **All who follow the options are told.** Where they used other settings than the options read
    as, they were among those announced; then they use the right ones. -/
theorem ends_tellAll {keys : List String} (wired : e.Wired)
    (current : e.parsedText = e.document.text)
    (present : "font" ∈ keys → ∃ s, e.options.get? "font" = some s)
    (parser : (∃ key ∈ keys, ParserKey key) ∨ e.ReadsParser)
    (highlights : "highlights" ∈ keys ∨ e.ReadsHighlights) :
    (e.optionFollowers.forM (tell keys showTrees)).Ends e
      (fun _ => Synced e.document.text e.options) (BrokenOff e.document.text e.options) := by
  rw [wired.optionFollowers]
  refine (ends_readOptions wired.fit current present parser).bind fun _ e₁ h => ?_
  have text : e₁.document.text = e.document.text := congrArg Setup.text h.setup
  have options : e₁.options = e.options := congrArg Setup.options h.setup
  have stale := highlights.imp_right fun reads => reads.of_setup h.setup
  have told := ends_tell_behavior showTrees (wired.of_setup h.setup) h.adapter h.current stale
  rw [text, options] at told
  exact told.bind fun _ _ synced => synced

/-! ### Moves -/

/-- A move is made with settings that fit, and resets no key twice. -/
def Move.Fits : Move → Prop
  | edit _ | report | force => True
  | update values => values.Fit
  | reset keys => keys.Nodup

/-- A move takes a font back that had been set. -/
def Move.DropsFont (o : Options Setting) : Move → Prop
  | edit _ | report | force | update _ => False
  | reset keys => "font" ∈ o.dropped keys

variable {text : String} {options : Options Setting}

/-- A pass keeps an editor in step. -/
theorem ends_reparse_of_inStep (force : Bool) (wired : e.Wired) (inStep : e.InStep) :
    (reparse force showTrees).Ends e (fun _ => Synced e.document.text e.options)
      (BrokenOff e.document.text e.options) := by
  have steady : e.adapter.parser.Steady := by
    obtain ⟨p, hp, steady⟩ := (wired.fit.fits inStep.adapter.parser).parser rfl
    obtain rfl := Setting.parser.inj hp
    exact steady
  refine (ends_reparse steady).imp (fun _ e' pass => ?_) fun _ _ off => off
  exact ⟨wired.of_setup pass.setup,
    ⟨inStep.adapter.of_reparsed pass, inStep.highlights.of_setup pass.setup⟩,
    congrArg Setup.text pass.setup, congrArg Setup.options pass.setup, pass.current⟩

/-- A change that announces all it changes keeps an editor in step, unless it takes the font
    back. -/
theorem ends_changeOptions {change : OptionChange Setting} {keys : List String}
    (synced : e.Synced text options) (announces : options.Announces change keys)
    (fit : change.options.Fit)
    (present : "font" ∈ keys → ∃ s, change.options.get? "font" = some s) :
    (changeOptions change showTrees).Ends e (fun _ => Synced text change.options)
      (BrokenOff text change.options) := by
  obtain ⟨wired, inStep, rfl, rfl, current⟩ := synced
  let e₁ : Editor := { e with options := change.options }
  have wired : e₁.Wired := ⟨fit, wired.optionFollowers, wired.kinds⟩
  -- What is not announced reads as before, so what was in step with it still is.
  have parser : (∃ key ∈ keys, ParserKey key) ∨ e₁.ReadsParser := by
    by_cases named : ∃ key ∈ keys, ParserKey key
    · exact .inl named
    · right
      have unnamed : ∀ key, ParserKey key → key ∉ keys := fun key hname hkey =>
        named ⟨key, hkey, hname⟩
      exact ⟨(announces.others _ (unnamed _ (.inl rfl))).trans inStep.adapter.parser,
        (announces.others _ (unnamed _ (.inr rfl))).trans inStep.adapter.flag⟩
  have highlights : "highlights" ∈ keys ∨ e₁.ReadsHighlights := by
    by_cases named : "highlights" ∈ keys
    · exact .inl named
    · right
      have same : e₁.highlights = e.highlights := by
        unfold Editor.highlights
        rw [show e₁.options = change.options from rfl, announces.others _ named]
      show e.behaviors[0]?.map Behavior.highlights = some e₁.highlights
      rw [same]
      exact inStep.highlights
  rcases announces.announced with told | ⟨silent, rfl⟩
  · exact (ends_tellAll (e := e₁) wired current present parser highlights).of_runOn_eq
      (runOn_changeOptions showTrees announces.made told)
  · have unnamed : ¬∃ key ∈ ([] : List String), ParserKey key := by simp
    have inStep : e₁.InStep := ⟨parser.resolve_left unnamed, highlights.resolve_left (by simp)⟩
    exact Editing.ends_of_runOn (runOn_changeOptions_of_none showTrees announces.made silent)
      ⟨wired, inStep, rfl, rfl, current⟩

/-- A move that does not take the font back keeps an editor in step, as far as it is done. -/
theorem ends_perform {m : Move} (synced : e.Synced text options) (fits : m.Fits)
    (kept : ¬m.DropsFont options) :
    (m.perform showTrees).Ends e (fun _ => Synced (m.text text) (m.options options))
      (BrokenOff (m.text text) (m.options options)) := by
  cases m with
  | edit new =>
    obtain ⟨wired, inStep, rfl, rfl, -⟩ := synced
    let given : Editor := { e with document := e.document.setText new }
    -- The new text is painted from the old tree before the pass.
    have same : given.rehighlightAll.unpainted = given.unpainted := unpainted_rehighlightAll given
    have setup : given.rehighlightAll.setup = given.setup := setup_of_unpainted same
    have options : given.rehighlightAll.options = e.options := congrArg Setup.options setup
    have text : given.rehighlightAll.document.text = new := congrArg Setup.text setup
    have wired : given.Wired := ⟨wired.fit, wired.optionFollowers, wired.kinds⟩
    have read : given.ReadsParser := ⟨inStep.adapter.parser, inStep.adapter.flag⟩
    have shown : given.ReadsHighlights := inStep.highlights
    have pass := ends_reparse_of_inStep false (wired.of_setup setup)
      ⟨read.of_unpainted same, shown.of_setup setup⟩
    rw [text, options] at pass
    exact pass
  | report =>
    obtain ⟨wired, inStep, rfl, rfl, -⟩ := synced
    exact ends_reparse_of_inStep false wired inStep
  | force =>
    obtain ⟨wired, inStep, rfl, rfl, -⟩ := synced
    exact ends_reparse_of_inStep true wired inStep
  | update values =>
    have fit : options.Fit := synced.options ▸ synced.fit
    have run := runOn_update (e := e) showTrees values
    rw [synced.options] at run
    refine (ends_changeOptions synced (options.announces_update values) (fit.update fits)
      fun hfont => ?_).of_runOn_eq run
    rw [← Table.contains_iff_mem_keys, Table.contains] at hfont
    obtain ⟨s, hs⟩ := Option.isSome_iff_exists.mp hfont
    exact ⟨s, by rw [Options.get?_update, hs]; rfl⟩
  | reset keys =>
    have fit : options.Fit := synced.options ▸ synced.fit
    have run := runOn_reset (e := e) showTrees keys
    rw [synced.options] at run
    have announces := options.announces_reset (options.nodup_dropped fits)
    exact (ends_changeOptions synced announces (fit.reset fits)
      fun hfont => absurd hfont kept).of_runOn_eq run

/-- Without a font that is announced, nobody reads anything again. -/
theorem runOn_tell_of_none {keys : List String} {followers others : List OptionFollower}
    (first : followers = .editor :: others) (named : "font" ∈ keys)
    (missing : e.options.get? "font" = none) :
    (followers.forM (tell keys showTrees)).runOn e = (.error (.missingKey ⟨"font"⟩), e) := by
  rw [first]
  show (readOptions keys showTrees >>= fun _ => others.forM (tell keys showTrees)).runOn e = _
  rw [Editing.runOn_bind]
  unfold readOptions
  rw [Editing.runOn_bind, runOn_readFont_of_none named missing]

/-- A move that takes the font back breaks off before anything is read again. -/
theorem runOn_perform_of_dropsFont {m : Move} (wired : e.Wired) (fits : m.Fits)
    (dropped : m.DropsFont e.options) :
    (m.perform showTrees).runOn e =
      (.error (.missingKey ⟨"font"⟩), { e with options := m.options e.options }) := by
  cases m with
  | reset keys =>
    have once := e.options.nodup_dropped fits
    have spec := e.options.reset_spec once
    have told : (e.options.reset keys).announced = some (e.options.dropped keys) := by
      rw [spec.announced, if_neg]
      intro nothing
      rw [List.isEmpty_iff] at nothing
      rw [Move.DropsFont, nothing] at dropped
      cases dropped
    have missing : (e.options.reset keys).options.get? "font" = none := by
      rw [Options.get?_reset _ once, if_pos (Options.mem_dropped.mp dropped).1,
        wired.fit.defaults]
      decide
    rw [runOn_reset, runOn_changeOptions showTrees spec.error told]
    exact runOn_tell_of_none wired.optionFollowers dropped missing
  | _ => cases dropped

/-- What a move leads to.  It is done and leaves the editor in step; or it takes the font back, and
    breaks off before anything is read again; or it breaks off as the text has no place for the
    tree. -/
inductive Upshot (e : Editor) (m : Move) : Except EditorError Unit × Editor → Prop where
  /-- The move is done. -/
  | done {e' : Editor} (kept : ¬m.DropsFont e.options)
      (synced : e'.Synced (m.text e.document.text) (m.options e.options)) : Upshot e m (.ok (), e')
  /-- The move takes the font back. -/
  | fontDropped (dropped : m.DropsFont e.options) :
      Upshot e m (.error (.missingKey ⟨"font"⟩), { e with options := m.options e.options })
  /-- The text has no place for the tree. -/
  | stuck {e' : Editor} {error : EditorError} (kept : ¬m.DropsFont e.options)
      (off : BrokenOff (m.text e.document.text) (m.options e.options) error e') :
      Upshot e m (.error error, e')

theorem upshot_perform {m : Move} (synced : e.Synced text options) (fits : m.Fits) :
    e.Upshot m ((m.perform showTrees).runOn e) := by
  obtain ⟨wired, inStep, rfl, rfl, current⟩ := synced
  by_cases dropped : m.DropsFont e.options
  · rw [runOn_perform_of_dropsFont wired fits dropped]
    exact .fontDropped dropped
  · have ends := ends_perform ⟨wired, inStep, rfl, rfl, current⟩ fits dropped
    rcases Editing.ends_iff.mp ends with ⟨_, e', run, synced⟩ | ⟨error, e', run, off⟩
    · rw [run]
      exact .done dropped synced
    · rw [run]
      exact .stuck dropped off

/-- As long as moves are done, they keep an editor in step. -/
theorem synced_of_forM {moves : List Move} (synced : e.Synced text options)
    (fits : ∀ m ∈ moves, m.Fits)
    (run : (moves.forM (Move.perform showTrees)).runOn e = (.ok (), e')) :
    ∃ text options, e'.Synced text options := by
  have step : ∀ m ∈ moves, ∀ e : Editor, (∃ text options, e.Synced text options) →
      (m.perform showTrees).Ends e (fun _ e => ∃ text options, e.Synced text options)
        fun _ _ => True := by
    rintro m hm e ⟨text, options, synced⟩
    have upshot := upshot_perform synced (fits m hm)
    unfold Editing.Ends
    generalize (m.perform showTrees).runOn e = ended at upshot
    cases upshot with
    | done _ synced => exact ⟨_, _, synced⟩
    | fontDropped => trivial
    | stuck => trivial
  have kept := Editing.ends_forM step ⟨text, options, synced⟩
  unfold Editing.Ends at kept
  rw [run] at kept
  exact kept

/-! ### New editors -/

/-- A new editor with a highlighting behavior. -/
def highlighted (options : Options Setting) (ds : Descriptors) : Except EditorError Editor :=
  (Editor.new options ds).bind fun e =>
    match (addBehavior .highlighting).runOn e with
    | (.ok _, e) => .ok e
    | (.error error, _) => .error error

/-- An editor for settings that fit has read them all. -/
theorem exists_new {given : Table Setting} (fit : given.Fit) (ds : Descriptors) :
    ∃ e, Editor.new (Setting.options given) ds = .ok e ∧
      e.setup = ⟨"", Setting.options given, [.editor], [], []⟩ ∧
      e.parsedText = e.document.text ∧ e.ReadsParser := by
  let o := Setting.options given
  let blank : Editor := { options := o, descriptors := ds }
  have fit : o.Fit := ⟨rfl, fit⟩
  -- A new editor reads the keys that there are, so a font is read only if there is one.
  have present : "font" ∈ o.keys → ∃ s, o.get? "font" = some s := by
    intro named
    obtain named | named := List.mem_append.mp named
    · exact Options.exists_get?_of_mem fit.defaults _ named
    · rw [List.mem_filter, ← Table.contains_iff_mem_keys, Table.contains] at named
      obtain ⟨s, hs⟩ := Option.isSome_iff_exists.mp named.1
      exact ⟨s, by rw [Options.get?, hs]; rfl⟩
  have defaulted : "parse_source" ∈ Setting.defaults.keys := by decide
  have named : ∃ key ∈ o.keys, ParserKey key :=
    ⟨"parse_source", List.mem_append_left _ defaulted, .inl rfl⟩
  have ends := ends_readOptions (e := blank) fit rfl present (.inl named)
  rcases Editing.ends_iff.mp ends with ⟨_, e, run, read⟩ | ⟨error, e, -, off⟩
  · refine ⟨{ e with activity := {} }, ?_, read.setup, read.current, ?_⟩
    · rw [new_of_runOn run]
      rfl
    · exact ⟨read.adapter.parser, read.adapter.flag⟩
  · exact absurd off not_brokenOff_empty

theorem runOn_removeBehavior_of_none {kind : BehaviorKind} (nothing : e.heldOf kind = []) :
    (removeBehavior kind).runOn e =
      (.ok none, { e with held := e.held.filter (· ∉ ([] : List Nat)) }) := by
  have unfolded : (removeBehavior kind).runOn e =
      (fun removed : List Nat => (do
        modify fun e => { e with held := e.held.filter (· ∉ removed) }
        removed.forM uninstall
        return removed.head? : Editing (Option Nat)).runOn e) (e.heldOf kind) := rfl
  rw [unfolded, nothing]
  rfl

theorem runOn_install_highlighting :
    (install .highlighting).runOn e =
      (do
        setHighlights e.behaviors.length e.highlights
        return e.behaviors.length : Editing Nat).runOn
      { e with
        behaviors := e.behaviors ++ [{ kind := .highlighting }]
        optionFollowers := e.optionFollowers ++ [.behavior e.behaviors.length]
        treeFollowers := e.treeFollowers ++ [e.behaviors.length] } := rfl

/-- A first behavior comes in step with the options. -/
theorem ends_install_highlighting (behaviors : e.behaviors = [])
    (followers : e.optionFollowers = [.editor]) (fit : e.options.Fit) (read : e.ReadsParser)
    (current : e.parsedText = e.document.text) :
    (install .highlighting).Ends e (fun _ => Synced e.document.text e.options)
      (BrokenOff e.document.text e.options) := by
  let e₁ : Editor :=
    { e with
      behaviors := [{ kind := .highlighting }]
      optionFollowers := [.editor, .behavior 0]
      treeFollowers := e.treeFollowers ++ [0] }
  have run : (install .highlighting).runOn e =
      (do setHighlights 0 e₁.highlights; return 0 : Editing Nat).runOn e₁ := by
    rw [runOn_install_highlighting]
    simp only [behaviors, followers]
    rfl
  have wired : e₁.Wired := ⟨fit, rfl, rfl⟩
  have taken := ends_setHighlights_of_wired wired ⟨read.parser, read.flag⟩ current
  refine Editing.Ends.of_runOn_eq ?_ run
  exact taken.bind fun _ _ synced => synced

theorem ends_addBehavior_highlighting (held : e.held = []) (behaviors : e.behaviors = [])
    (followers : e.optionFollowers = [.editor]) (fit : e.options.Fit) (read : e.ReadsParser)
    (current : e.parsedText = e.document.text) :
    (addBehavior .highlighting).Ends e (fun _ => Synced e.document.text e.options)
      (BrokenOff e.document.text e.options) := by
  have nothing : e.heldOf .highlighting = [] := by
    unfold heldOf
    rw [held]
    rfl
  unfold addBehavior
  refine Editing.Ends.after ?_ (runOn_removeBehavior_of_none nothing)
  have installed := ends_install_highlighting
    (e := { e with held := e.held.filter (· ∉ ([] : List Nat)) }) behaviors followers fit
    ⟨read.parser, read.flag⟩ current
  refine installed.bind fun id e' synced => ?_
  have adapter : e'.ReadsParser := synced.adapter
  exact ⟨⟨synced.fit, synced.optionFollowers, synced.kinds⟩,
    ⟨⟨adapter.parser, adapter.flag⟩, synced.highlights⟩, synced.text, synced.options,
    synced.current⟩

/-- Settings that fit give an editor in step with them. -/
theorem exists_highlighted {given : Table Setting} (fit : given.Fit) (ds : Descriptors) :
    ∃ e, highlighted (Setting.options given) ds = .ok e ∧
      e.Synced "" (Setting.options given) := by
  obtain ⟨e, made, setup, current, read⟩ := exists_new fit ds
  have held : e.held = [] := congrArg Setup.held setup
  have behaviors : e.behaviors = [] := by simpa [Editor.setup] using congrArg Setup.behaviors setup
  have options : e.options = Setting.options given := congrArg Setup.options setup
  have followers : e.optionFollowers = [.editor] := congrArg Setup.optionFollowers setup
  have text : e.document.text = "" := congrArg Setup.text setup
  have fit : e.options.Fit := options ▸ ⟨rfl, fit⟩
  have added := ends_addBehavior_highlighting held behaviors followers fit read current
  rw [text, options] at added
  unfold highlighted
  rw [made]
  rcases Editing.ends_iff.mp added with ⟨_, e', run, synced⟩ | ⟨error, e', -, off⟩
  · refine ⟨e', ?_, synced⟩
    show (match (addBehavior .highlighting).runOn e with
      | (.ok _, e) => Except.ok e
      | (.error error, _) => .error error) = _
    rw [run]
  · exact absurd off not_brokenOff_empty

/-- **An editor and its behavior stay in step with the options.**  From all settings that fit an
    editor is made, with a behavior in step with them.  As long as moves are done it stays in step,
    and the next move is done as well, unless it takes a font back or leads to a tree that the text
    has no place for. -/
theorem inStep_run (given : Table Setting) (fit : given.Fit) (ds : Descriptors) :
    ∃ e₀, highlighted (Setting.options given) ds = .ok e₀ ∧
      ∀ moves : List Move, (∀ m ∈ moves, m.Fits) →
        ∀ e, (moves.forM (Move.perform showTrees)).runOn e₀ = (.ok (), e) →
          e.InStep ∧ ∀ m : Move, m.Fits → e.Upshot m ((m.perform showTrees).runOn e) := by
  obtain ⟨e₀, made, synced⟩ := exists_highlighted fit ds
  refine ⟨e₀, made, fun moves fits e run => ?_⟩
  obtain ⟨text, options, synced⟩ := synced_of_forM synced fits run
  exact ⟨synced.toInStep, fun m fits => upshot_perform synced fits⟩

/-- A font, and the wish to keep the last good tree. -/
def monoSettings : Table Setting :=
  .ofList [("font", .plain (.str "Mono")), ("keep_last_good", .plain (.bool true))]

theorem fit_monoSettings : monoSettings.Fit := by
  have font : (Setting.plain (.str "Mono")).Fits "font" := ⟨nofun, nofun, nofun, nofun⟩
  have flag : (Setting.plain (.bool true)).Fits "keep_last_good" :=
    ⟨nofun, fun _ => ⟨true, rfl⟩, nofun, nofun⟩
  exact (Table.fit_empty.insert font).insert flag

/-- New highlights. -/
def unhighlighted : Table Setting :=
  .ofList [("highlights", .plain .none)]

/-- Highlights are switched off, and then on again by a reset. -/
theorem inStep_run_monoSettings :
    ∃ e₀ e₁, highlighted (Setting.options monoSettings) (.empty .lyql) = .ok e₀ ∧
      ((Move.update unhighlighted).perform showTrees).runOn e₀ = (.ok (), e₁) ∧ e₁.InStep ∧
      e₁.Upshot (.reset ["highlights"])
        (((Move.reset ["highlights"]).perform showTrees).runOn e₁) := by
  have fits : (Move.update unhighlighted).Fits := by
    intro key s h
    simp only [unhighlighted, Table.ofList, List.foldl_cons, List.foldl_nil, Table.get?_insert,
      Table.get?_empty] at h
    split at h
    · subst key
      obtain rfl := Option.some.inj h
      exact ⟨nofun, nofun, fun _ => .inl rfl, nofun⟩
    · cases h
  obtain ⟨e₀, made, run⟩ := inStep_run monoSettings fit_monoSettings (.empty .lyql)
  obtain ⟨e, made', synced⟩ := exists_highlighted fit_monoSettings (.empty .lyql)
  obtain rfl := Except.ok.inj (made.symm.trans made')
  -- There is no text yet, so the first move is done.
  have first := (run [] (by simp) e₀ rfl).2 _ fits
  have ended : ∃ e₁, ((Move.update unhighlighted).perform showTrees).runOn e₀ = (.ok (), e₁) := by
    generalize ((Move.update unhighlighted).perform showTrees).runOn e₀ = ended at first
    cases first with
    | done => exact ⟨_, rfl⟩
    | fontDropped dropped => cases dropped
    | stuck _ off =>
      rw [synced.text] at off
      exact absurd off not_brokenOff_empty
  obtain ⟨e₁, hfirst⟩ := ended
  have one : ([Move.update unhighlighted].forM (Move.perform showTrees)).runOn e₀ =
      (.ok (), e₁) := by
    show (Move.perform showTrees (.update unhighlighted) >>= fun _ => pure ()).runOn e₀ = _
    rw [Editing.runOn_bind, hfirst]
    rfl
  obtain ⟨inStep, upshot⟩ := run _ (by simpa using fits) e₁ one
  exact ⟨e₀, e₁, made, hfirst, inStep, upshot (.reset ["highlights"]) (List.nodup_singleton _)⟩

/-- A reset that takes the font back breaks off, and leaves the adapter out of step. -/
theorem not_inStep_of_reset_font :
    ∃ e₀ e, highlighted (Setting.options monoSettings) (.empty .lyql) = .ok e₀ ∧ e₀.InStep ∧
      ((Move.reset ["font", "keep_last_good"]).perform showTrees).runOn e₀ =
        (.error (.missingKey ⟨"font"⟩), e) ∧ ¬e.InStep := by
  obtain ⟨e₀, made, synced⟩ := exists_highlighted fit_monoSettings (.empty .lyql)
  have distinct : (Move.reset ["font", "keep_last_good"]).Fits :=
    show ["font", "keep_last_good"].Nodup by decide
  have dropped : (Move.reset ["font", "keep_last_good"]).DropsFont e₀.options := by
    rw [synced.options]
    exact Options.mem_dropped.mpr ⟨by decide, by decide⟩
  have off := runOn_perform_of_dropsFont synced.toWired distinct dropped
  refine ⟨e₀, _, made, synced.toInStep, off, fun inStep => ?_⟩
  have before : e₀.options.get? "keep_last_good" = some (.plain (.bool true)) := by
    rw [synced.options]
    rfl
  have after : ((e₀.options.reset ["font", "keep_last_good"]).options).get? "keep_last_good" =
      some (.plain (.bool false)) := by
    rw [synced.options]
    rfl
  -- What the options read as has changed, but the adapter has not.
  have kept : some (Setting.plain (.bool true)) = some (.plain (.bool e₀.adapter.keepLastGood)) :=
    before.symm.trans synced.adapter.flag
  have read : some (Setting.plain (.bool false)) = some (.plain (.bool e₀.adapter.keepLastGood)) :=
    after.symm.trans inStep.adapter.flag
  simp [← kept] at read

end Editor

end LyqlHighlight
