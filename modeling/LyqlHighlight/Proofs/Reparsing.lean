import LyqlHighlight.Proofs.InStep

namespace LyqlHighlight

/-!
# When an editor parses its text

An editor parses its text when it has changed, when a pass is forced, and when it takes another
parser; it does not when its contents are only reported as changed.  Those who follow the tree are
told after all has been set, so whatever they report in turn leads to no further pass.

* `Editor.Core` — all that passes are about;
* `Editor.Reaction` — what those who follow the tree do once they are told;
* `Editor.Core.Settled` — an editor between two moves;
* `Editor.Law` — what a move leads to, with a pass or without one;
* `Editor.law_runAll` — the main result.
-/

/-- The options start from the defaults of every editor, and no parser they read as is ever
    interrupted. -/
structure Options.Steady (o : Options Setting) : Prop where
  /-- The options start from the defaults of every editor. -/
  defaults : o.defaults = Setting.defaults
  /-- The parser is never interrupted. -/
  parser : ∀ s, o.get? "parse_source" = some s → s.toParser.Steady

theorem Options.Steady.update {o : Options Setting} (h : o.Steady) {values : Table Setting}
    (steady : ∀ s, values.get? "parse_source" = some s → s.toParser.Steady) :
    (o.update values).options.Steady := by
  refine ⟨h.defaults, fun s hs => ?_⟩
  rw [get?_update] at hs
  rcases set : values.get? "parse_source" with _ | s'
  · rw [set] at hs
    exact h.parser s hs
  · rw [set] at hs
    exact steady s (set.trans hs)

theorem Options.Steady.reset {o : Options Setting} (h : o.Steady) {keys : List String}
    (distinct : keys.Nodup) : (o.reset keys).options.Steady := by
  have once := o.nodup_dropped distinct
  refine ⟨(o.reset_spec once).defaults.trans h.defaults, fun s hs => ?_⟩
  rw [get?_reset o once] at hs
  split at hs
  · have lyql : o.defaults.get? "parse_source" = some (.parser .lyql) := by
      rw [h.defaults]
      rfl
    obtain rfl := Option.some.inj (lyql.symm.trans hs)
    exact Parser.steady_lyql
  · exact h.parser s hs

namespace Editor

/-! ### All that passes are about -/

/-- All that passes are about. -/
structure Core where
  /-- The options. -/
  options : Options Setting
  /-- Those who follow the options. -/
  optionFollowers : List OptionFollower
  /-- The text. -/
  text : String
  /-- The adapter of the parser in use. -/
  adapter : Adapter
  /-- The tree to show. -/
  tree : Snapshot
  /-- The text of the last pass. -/
  parsedText : String
  /-- The outcome of the last pass. -/
  lastOutcome : Option Outcome
  /-- The passes that have been asked for. -/
  inquiries : List Inquiry
  /-- The trees that have been announced. -/
  published : List Snapshot

/-- What passes are about in the state of an editor. -/
def core (e : Editor) : Core where
  options := e.options
  optionFollowers := e.optionFollowers
  text := e.document.text
  adapter := e.adapter
  tree := e.tree
  parsedText := e.parsedText
  lastOutcome := e.lastOutcome
  inquiries := e.inquiries
  published := e.activity.published

variable {e e' : Editor}

theorem core_of_unpainted (same : e'.unpainted = e.unpainted) : e'.core = e.core := by
  have h := congrArg core same
  exact h

/-- Between two moves the last pass was over the text, and what it led to is in use. -/
structure Core.Settled (c : Core) (i : Inquiry) (o : Outcome) : Prop where
  /-- The text has been parsed. -/
  current : c.parsedText = c.text
  /-- The last pass that was asked for, -/
  last : c.inquiries.getLast? = some i
  /-- was over this text, -/
  text : i.text = c.parsedText
  /-- had this outcome, -/
  returned : i.pass.result = .ok o
  /-- which is kept, -/
  outcome : c.lastOutcome = some o
  /-- with its tree, -/
  tree : c.tree = o.snapshot
  /-- and left the adapter behind. -/
  adapter : c.adapter = i.pass.adapter

/-- It matters neither what the options are and who follows them, nor what has been announced. -/
theorem Core.Settled.change {c : Core} {i : Inquiry} {o : Outcome} (h : c.Settled i o)
    (options : Options Setting) (optionFollowers : List OptionFollower)
    (published : List Snapshot) :
    { c with options, optionFollowers, published }.Settled i o :=
  ⟨h.current, h.last, h.text, h.returned, h.outcome, h.tree, h.adapter⟩

/-- No parser is ever interrupted, and nobody is told of the options before the editor is. -/
structure Core.Live (c : Core) : Prop where
  /-- The parser in use is never interrupted. -/
  parser : c.adapter.parser.Steady
  /-- No parser of the options is ever interrupted. -/
  options : c.options.Steady
  /-- The editor follows the options once, before all behaviors. -/
  followers : ∃ ids : List Nat, c.optionFollowers = .editor :: ids.map .behavior

/-- What holds of an editor between two moves. -/
def Core.Standing (c : Core) : Prop :=
  c.Live ∧ ∃ i o, c.Settled i o

/-- After a pass an editor is settled. -/
theorem settled_passed {o : Outcome} (returned : e.inquiry.pass.result = .ok o) :
    (e.passed o).core.Settled e.inquiry o where
  current := rfl
  last := List.getLast?_concat
  text := rfl
  returned := returned
  outcome := rfl
  tree := rfl
  adapter := rfl

theorem live_passed {o : Outcome} (live : e.core.Live) : (e.passed o).core.Live where
  parser := by
    have parser := (e.adapter.settings_attempt e.descriptors e.document.text).1
    have h := live.parser
    rw [show e.core.adapter = e.adapter from rfl, ← parser] at h
    exact h
  options := live.options
  followers := live.followers

/-! ### Reactions -/

/-- What those who follow the tree do once they are told.  They may break off, but they change
    nothing that passes are about; and they may report the contents as changed. -/
inductive Reaction where
  /-- Nothing more. -/
  | done
  /-- What comes next depends on what they see. -/
  | look (next : Editor → Reaction)
  /-- An action of their own. -/
  | act (a : Editing Unit) (quiet : ∀ e, (a.runOn e).2.core = e.core) (next : Reaction)
  /-- A report.  Should a pass come of it, it would lead to the given action. -/
  | report (announce : Editing Unit) (next : Reaction)

namespace Reaction

/-- The reaction as an operation. -/
def perform : Reaction → Editing Unit
  | done => pure ()
  | look next => do (next (← get)).perform
  | act a _ next => do
    a
    next.perform
  | report announce next => do
    reparse false announce
    next.perform

/-- No action breaks off. -/
def Calm : Reaction → Prop
  | done => True
  | look next => ∀ e, (next e).Calm
  | act a _ next => (∀ e, ∃ e', a.runOn e = (.ok (), e')) ∧ next.Calm
  | report _ next => next.Calm

/-- Behaviors show the tree, which is painting. -/
theorem quiet_showTrees (e : Editor) : (showTrees.runOn e).2.core = e.core := by
  rcases Editing.ends_iff.mp e.ends_showTrees with
      ⟨_, e', run, same⟩ | ⟨error, e', run, same, -⟩ <;>
    (rw [run]; exact core_of_unpainted same)

/-- No report of a reaction leads to a pass, as the text has been parsed already. -/
theorem ends_perform (r : Reaction) {e : Editor}
    (current : e.core.parsedText = e.core.text) :
    r.perform.Ends e (fun _ e' => e'.core = e.core) fun _ e' => e'.core = e.core ∧ ¬r.Calm := by
  -- On the reaction.  No action changes the core, so the text stays the one that has been parsed.
  induction r generalizing e with
  | done => exact rfl
  | look next ih =>
    have run : (look next).perform.runOn e = (next e).perform.runOn e := rfl
    refine ((ih e current).of_runOn_eq run).imp (fun _ _ same => same) fun _ _ off => ?_
    exact ⟨off.1, fun calm => off.2 (calm e)⟩
  | act a quiet next ih =>
    have same := quiet e
    rcases run : a.runOn e with ⟨result, e₁⟩
    rw [run] at same
    have same : e₁.core = e.core := same
    cases result with
    | ok =>
      have current : e₁.core.parsedText = e₁.core.text := by rw [same]; exact current
      refine Editing.Ends.after ?_ run
      refine (ih current).imp (fun _ _ h => h.trans same) fun _ _ off => ?_
      exact ⟨off.1.trans same, fun calm => off.2 calm.2⟩
    | error error =>
      refine Editing.ends_iff.mpr (.inr ⟨error, e₁, ?_, same, fun calm => ?_⟩)
      · show (a >>= fun _ => next.perform).runOn e = _
        rw [Editing.runOn_bind, run]
      · obtain ⟨e₂, ok⟩ := calm.1 e
        rw [run] at ok
        cases ok
  | report announce next ih =>
    exact Editing.Ends.after (ih current) (runOn_reparse_of_same announce current.symm)

end Reaction

/-! ### Moves -/

/-- Moves that are about texts and parsers. -/
def Move.OfParsing : Move → Prop
  | edit _ | report | force => True
  | update values => ∀ key s, values.get? key = some s → ParserKey key ∧ s.toParser.Steady
  | reset keys => keys.Nodup ∧ ∀ key ∈ keys, ParserKey key

/-- A move has the editor read again what parser to use. -/
def Move.Rereads (o : Options Setting) : Move → Prop
  | edit _ | report | force => False
  | update values => values.keys ≠ []
  | reset keys => o.dropped keys ≠ []

/-- A move asks for a pass: the text is another one than that of the last pass, or the pass is
    forced, or the parser is read again. -/
def Move.Asks (e : Editor) : Move → Prop
  | edit text => text ≠ e.parsedText
  | report => e.document.text ≠ e.parsedText
  | force => True
  | update values => (update values).Rereads e.options
  | reset keys => (reset keys).Rereads e.options

/-- The adapter has the parser and the flag that the options read as. -/
structure Takes (e : Editor) : Prop where
  /-- The parser. -/
  parser : (e.options.get? "parse_source").map Setting.toParser = some e.adapter.parser
  /-- The flag. -/
  flag : (e.options.get? "keep_last_good").map Setting.holds = some e.adapter.keepLastGood

/-- What a move has changed before a pass is asked for. -/
structure Prepares (e : Editor) (m : Move) (e₁ : Editor) : Prop where
  /-- The text is that of the move. -/
  text : e₁.document.text = m.text e.document.text
  /-- The options are those of the move. -/
  options : e₁.options = m.options e.options
  /-- The adapter stays, unless the parser is read again. -/
  kept : ¬m.Rereads e.options → e₁.adapter = e.adapter
  /-- Then it is one for the parser that the options read as. -/
  taken : m.Rereads e.options → e₁.Takes
  /-- No pass has been asked for yet. -/
  inquiries : e₁.inquiries = e.inquiries
  /-- No tree has been announced yet. -/
  published : e₁.activity.published = e.activity.published

/-- A move has prepared the editor, and then leads to one pass or to nothing more. -/
structure LeadsTo (e : Editor) (m : Move) (e₁ : Editor) : Prop where
  /-- The editor is prepared. -/
  prepares : e.Prepares m e₁
  /-- No parser is ever interrupted. -/
  live : e₁.core.Live
  /-- Those who follow the tree are told once, after the pass. -/
  told : m.Asks e → ∀ announce o, e₁.inquiry.pass.result = .ok o →
    (m.perform announce).runOn e = announce.runOn (e₁.passed o)
  /-- Without a pass nobody is told anything. -/
  silent : ¬m.Asks e → ∀ announce, (m.perform announce).runOn e = (.ok (), e₁)
  /-- Without a pass the editor stays settled. -/
  settled : ¬m.Asks e → ∀ i o, e.core.Settled i o → e₁.core.Settled i o

theorem leadsTo_edit (text : String) (live : e.core.Live) :
    ∃ e₁, e.LeadsTo (.edit text) e₁ := by
  let given : Editor := { e with document := e.document.setText text }
  have same : given.rehighlightAll.core = given.core :=
    core_of_unpainted (unpainted_rehighlightAll given)
  have run (announce : Editing Unit) : ((Move.edit text).perform announce).runOn e =
      (reparse false announce).runOn given.rehighlightAll := runOn_setText announce text
  have new : given.rehighlightAll.document.text = text := congrArg Core.text same
  have parsed : given.rehighlightAll.parsedText = e.parsedText := congrArg Core.parsedText same
  have prepares : e.Prepares (.edit text) given.rehighlightAll :=
    ⟨new, congrArg Core.options same, fun _ => congrArg Core.adapter same, False.elim,
      congrArg Core.inquiries same, congrArg Core.published same⟩
  refine ⟨given.rehighlightAll, prepares, ?_, ?_, ?_, ?_⟩
  · rw [same]
    exact ⟨live.parser, live.options, live.followers⟩
  · intro asks announce o returned
    rw [run, runOn_reparse announce (.inr ?_) returned]
    rw [new, parsed]
    exact asks
  · intro rests announce
    rw [run, runOn_reparse_of_same announce]
    rw [new, parsed]
    exact not_not.mp rests
  · intro rests i o settled
    rw [same]
    have current : e.parsedText = text := (not_not.mp rests).symm
    exact ⟨current, settled.last, settled.text, settled.returned, settled.outcome, settled.tree,
      settled.adapter⟩

theorem leadsTo_report (live : e.core.Live) : e.LeadsTo .report e where
  prepares := ⟨rfl, rfl, fun _ => rfl, False.elim, rfl, rfl⟩
  live := live
  told asks announce _ returned := runOn_reparse announce (.inr asks) returned
  silent rests announce := runOn_reparse_of_same announce (not_not.mp rests)
  settled _ _ _ settled := settled

theorem leadsTo_force (live : e.core.Live) : e.LeadsTo .force e where
  prepares := ⟨rfl, rfl, fun _ => rfl, False.elim, rfl, rfl⟩
  live := live
  told _ announce _ returned := runOn_reparse announce (.inl rfl) returned
  silent rests := absurd trivial rests
  settled rests := absurd trivial rests

/-- Of those who follow the options, only the editor minds what parser to use. -/
theorem runOn_forM_tell {keys : List String} (only : ∀ key ∈ keys, ParserKey key)
    (announce : Editing Unit) {followers : List OptionFollower}
    (first : ∃ ids : List Nat, followers = .editor :: ids.map .behavior) (e : Editor) :
    (followers.forM (tell keys announce)).runOn e = (readParser keys announce).runOn e := by
  obtain ⟨ids, rfl⟩ := first
  have unnamed : ∀ key, ¬ParserKey key → key ∉ keys := fun key hkey named => hkey (only key named)
  have no_font : "font" ∉ keys := unnamed _ (by simp [ParserKey])
  have no_colors : "colors" ∉ keys := unnamed _ (by simp [ParserKey])
  have no_highlights : "highlights" ∉ keys := unnamed _ (by simp [ParserKey])
  have others := idle_tell_behaviors announce no_highlights ids
  have read : (readOptions keys announce).runOn e = (readParser keys announce).runOn e := by
    unfold readOptions readFont readColors
    rw [if_neg no_font, if_neg no_colors]
    rfl
  show (readOptions keys announce >>= fun _ =>
    (ids.map OptionFollower.behavior).forM (tell keys announce)).runOn e = _
  rw [others.runOn_bind_left, read]

/-- A change of the settings that the parser depends on. -/
theorem leadsTo_change {m : Move} {change : OptionChange Setting} {keys : List String}
    (run : ∀ announce, (m.perform announce).runOn e = (changeOptions change announce).runOn e)
    (text : m.text e.document.text = e.document.text)
    (options : m.options e.options = change.options)
    (asks : m.Asks e ↔ keys ≠ []) (rereads : m.Rereads e.options ↔ keys ≠ [])
    (announces : e.options.Announces change keys) (only : ∀ key ∈ keys, ParserKey key)
    (steady : change.options.Steady) (live : e.core.Live) : ∃ e₁, e.LeadsTo m e₁ := by
  let changed : Editor := { e with options := change.options }
  have told (announce : Editing Unit) : (m.perform announce).runOn e =
      (readParser keys announce).runOn changed := by
    rw [run]
    rcases announces.announced with told | ⟨silent, rfl⟩
    · rw [runOn_changeOptions announce announces.made told]
      exact runOn_forM_tell only announce live.followers changed
    · rw [runOn_changeOptions_of_none announce announces.made silent,
        idle_readParser announce (by simp) changed]
  by_cases nothing : keys = []
  · -- Nothing is announced, so only the options are others than before.
    subst nothing
    have unread : ¬m.Rereads e.options := fun h => rereads.mp h rfl
    refine ⟨changed, ⟨text.symm, options.symm, fun _ => rfl, fun h => absurd h unread, rfl, rfl⟩,
      ⟨live.parser, steady, live.followers⟩, ?_, ?_, ?_⟩
    · exact fun h => absurd rfl (asks.mp h)
    · intro _ announce
      rw [told, idle_readParser announce (by simp) changed]
    · exact fun _ i o settled => settled.change change.options e.optionFollowers e.core.published
  · -- A new adapter takes the parser and the flag that the options read as now.
    have asked : m.Asks e := asks.mpr nothing
    have named : ∃ key ∈ keys, ParserKey key := by
      obtain ⟨key, hkey⟩ := List.exists_mem_of_ne_nil keys nothing
      exact ⟨key, hkey, only key hkey⟩
    obtain ⟨p, hp⟩ := Options.exists_get?_of_mem steady.defaults "parse_source" (by decide)
    obtain ⟨b, hb⟩ := Options.exists_get?_of_mem steady.defaults "keep_last_good" (by decide)
    have takes : (changed.withParser p b).Takes :=
      ⟨congrArg (Option.map Setting.toParser) hp, congrArg (Option.map Setting.holds) hb⟩
    refine ⟨changed.withParser p b, ⟨text.symm, options.symm,
      fun unread => absurd (rereads.mpr nothing) unread, fun _ => takes, rfl, rfl⟩,
      ⟨steady.parser p hp, steady, live.followers⟩, ?_, ?_, ?_⟩
    · intro _ announce o returned
      rw [told, runOn_readParser announce named hp hb, runOn_reparse announce (.inl rfl) returned]
    · exact fun rests => absurd asked rests
    · exact fun rests => absurd asked rests

theorem exists_leadsTo {m : Move} (live : e.core.Live) (fits : m.OfParsing) :
    ∃ e₁, e.LeadsTo m e₁ := by
  cases m with
  | edit text => exact leadsTo_edit text live
  | report => exact ⟨e, leadsTo_report live⟩
  | force => exact ⟨e, leadsTo_force live⟩
  | update values =>
    have only : ∀ key ∈ values.keys, ParserKey key := by
      intro key hkey
      rw [← Table.contains_iff_mem_keys, Table.contains] at hkey
      obtain ⟨s, hs⟩ := Option.isSome_iff_exists.mp hkey
      exact (fits key s hs).1
    exact leadsTo_change (fun announce => runOn_update announce values) rfl rfl .rfl .rfl
      (e.options.announces_update values) only
      (live.options.update fun s hs => (fits _ s hs).2) live
  | reset keys =>
    obtain ⟨distinct, only⟩ := fits
    exact leadsTo_change (fun announce => runOn_reset announce keys) rfl rfl .rfl .rfl
      (e.options.announces_reset (e.options.nodup_dropped distinct))
      (fun key hkey => only key (Options.mem_dropped.mp hkey).1) (live.options.reset distinct) live

/-! ### Runs -/

/-- The editor after a move, with the reaction of those who follow the tree to a pass. -/
def after (e : Editor) (s : Move × Reaction) : Editor :=
  ((s.1.perform s.2.perform).runOn e).2

/-- The editor after several moves. -/
def runAll (e : Editor) (steps : List (Move × Reaction)) : Editor :=
  steps.foldl after e

/-- What a move leads to. -/
inductive Law (e : Editor) (m : Move) (r : Reaction) : Prop where
  /-- Without a reason for a pass there is none, and nobody is told. -/
  | rests (e₁ : Editor) (prepares : e.Prepares m e₁) (unasked : ¬m.Asks e)
      (run : ∀ announce, (m.perform announce).runOn e = (.ok (), e₁))
      (inquiries : (e.after (m, r)).inquiries = e.inquiries)
      (published : (e.after (m, r)).activity.published = e.activity.published)
  /-- Otherwise there is one pass.  Those who follow the tree are told once, when the editor has
      taken over all that came of the pass; and whatever they do leads to no other. -/
  | passes (e₁ : Editor) (o : Outcome) (prepares : e.Prepares m e₁) (asked : m.Asks e)
      (returned : e₁.inquiry.pass.result = .ok o)
      (run : ∀ announce, (m.perform announce).runOn e = announce.runOn (e₁.passed o))
      (quiet : (e.after (m, r)).core = (e₁.passed o).core)
      (inquiries : (e.after (m, r)).inquiries = e.inquiries ++ [e₁.inquiry])
      (published : (e.after (m, r)).activity.published = e.activity.published ++ [o.snapshot])
      (done : r.Calm → (m.perform r.perform).runOn e = (.ok (), e.after (m, r)))

/-- One move. -/
theorem law_after {m : Move} {r : Reaction} (standing : e.core.Standing) (fits : m.OfParsing) :
    e.Law m r ∧ (e.after (m, r)).core.Standing := by
  obtain ⟨live, i, o, settled⟩ := standing
  obtain ⟨e₁, leads⟩ := exists_leadsTo live fits
  by_cases asked : m.Asks e
  · obtain ⟨o₁, returned⟩ :=
      Adapter.exists_outcome leads.live.parser e₁.descriptors e₁.document.text
    have run announce := leads.told asked announce o₁ returned
    have passed := settled_passed returned
    -- The reaction starts from an editor whose text has been parsed, and so leads to no pass.
    have reacted := (r.ends_perform passed.current).of_runOn_eq (run r.perform)
    have quiet : (e.after (m, r)).core = (e₁.passed o₁).core := by
      rcases Editing.ends_iff.mp reacted with ⟨_, e', ended, same⟩ | ⟨_, e', ended, same, -⟩ <;>
        (unfold after; rw [ended]; exact same)
    have inquiries : (e.after (m, r)).inquiries = e₁.inquiries ++ [e₁.inquiry] :=
      congrArg Core.inquiries quiet
    have published : (e.after (m, r)).activity.published =
        e₁.activity.published ++ [o₁.snapshot] := congrArg Core.published quiet
    rw [leads.prepares.inquiries] at inquiries
    rw [leads.prepares.published] at published
    refine ⟨.passes e₁ o₁ leads.prepares asked returned run quiet inquiries published
      fun calm => ?_, ?_⟩
    · rcases Editing.ends_iff.mp reacted with ⟨_, e', ended, -⟩ | ⟨_, e', -, -, off⟩
      · unfold after
        rw [ended]
      · exact absurd calm off
    · rw [quiet]
      exact ⟨live_passed leads.live, _, _, passed⟩
  · have run := leads.silent asked
    have ended : e.after (m, r) = e₁ := by
      unfold after
      rw [run]
    refine ⟨.rests e₁ leads.prepares asked run ?_ ?_, ?_⟩ <;> rw [ended]
    · exact leads.prepares.inquiries
    · exact leads.prepares.published
    · exact ⟨leads.live, i, o, leads.settled asked i o settled⟩

theorem standing_runAll {steps : List (Move × Reaction)} (standing : e.core.Standing)
    (fits : ∀ s ∈ steps, s.1.OfParsing) : (e.runAll steps).core.Standing := by
  induction steps generalizing e with
  | nil => exact standing
  | cons s steps ih =>
    refine ih (law_after (m := s.1) (r := s.2) standing (fits s List.mem_cons_self)).2 ?_
    exact fun s hs => fits s (List.mem_cons_of_mem _ hs)

/-! ### New editors and their behaviors -/

/-- An editor that has read all its settings has made a first pass. -/
theorem standing_readOptions {keys : List String} (named : ∃ key ∈ keys, ParserKey key)
    (steady : e.options.Steady) (followers : e.optionFollowers = [.editor]) :
    (readOptions keys showTrees).Ends e (fun _ e' => e'.core.Standing) fun _ _ => True := by
  unfold readOptions
  refine ((ends_readFont keys).imp (fun _ _ h => h) fun _ _ _ => trivial).bind ?_
  rintro _ _ ⟨font, rfl⟩
  refine ((ends_readColors keys).imp (fun _ _ h => h) fun _ _ _ => trivial).bind ?_
  rintro _ _ ⟨palette, rfl⟩
  -- The font and the colors are read before, which changes nothing that passes are about.
  let e₂ : Editor := { e with font, palette }
  obtain ⟨p, hp⟩ := Options.exists_get?_of_mem steady.defaults "parse_source" (by decide)
  obtain ⟨b, hb⟩ := Options.exists_get?_of_mem steady.defaults "keep_last_good" (by decide)
  have live : (e₂.withParser p b).core.Live :=
    ⟨steady.parser p hp, steady, [], followers⟩
  obtain ⟨o, returned⟩ := Adapter.exists_outcome live.parser e₂.descriptors e₂.document.text
  have run := (runOn_readParser (e := e₂) showTrees named hp hb).trans
    (runOn_reparse showTrees (.inl rfl) returned)
  refine ((ends_showTrees _).of_runOn_eq run).imp (fun _ e' painted => ?_) fun _ _ _ => trivial
  rw [core_of_unpainted painted]
  exact ⟨live_passed live, _, _, settled_passed returned⟩

theorem standing_new {options : Options Setting} {ds : Descriptors} (steady : options.Steady)
    (made : Editor.new options ds = .ok e) : e.core.Standing := by
  have named : ∃ key ∈ options.keys, ParserKey key := by
    refine ⟨"parse_source", List.mem_append_left _ ?_, .inl rfl⟩
    rw [steady.defaults]
    decide
  have read := standing_readOptions (e := { options, descriptors := ds }) named steady rfl
  rcases Editing.ends_iff.mp read with ⟨_, e', run, standing⟩ | ⟨error, e', run, -⟩
  · rw [new_of_runOn run] at made
    obtain rfl := Except.ok.inj made
    obtain ⟨live, i, o, settled⟩ := standing
    exact ⟨⟨live.parser, live.options, live.followers⟩, i, o, settled.change _ _ []⟩
  · rw [new_of_runOn run] at made
    cases made

/-- An operation of a behavior keeps what holds between two moves. -/
def KeepsStanding {α : Type} (m : Editing α) : Prop :=
  ∀ e : Editor, e.core.Standing →
    m.Ends e (fun _ e' => e'.core.Standing) fun _ e' => e'.core.Standing

theorem KeepsStanding.bind {α β : Type} {m : Editing α} {f : α → Editing β} (hm : KeepsStanding m)
    (hf : ∀ a, KeepsStanding (f a)) : KeepsStanding (m >>= f) :=
  fun e standing => (hm e standing).bind fun a e' standing => hf a e' standing

theorem keepsStanding_pure {α : Type} (a : α) : KeepsStanding (pure a) :=
  fun _ standing => standing

theorem keepsStanding_get : KeepsStanding get :=
  fun _ standing => standing

theorem keepsStanding_modify {f : Editor → Editor} (same : ∀ e, (f e).core = e.core) :
    KeepsStanding (modify f) := by
  intro e standing
  show (f e).core.Standing
  rw [same]
  exact standing

/-- Behaviors may come and go among those who follow the options. -/
theorem Core.Standing.follow {c : Core} (standing : c.Standing) {ids : List Nat} :
    { c with optionFollowers := .editor :: ids.map .behavior }.Standing := by
  obtain ⟨live, i, o, settled⟩ := standing
  exact ⟨⟨live.parser, live.options, ids, rfl⟩, i, o, settled.change _ _ _⟩

theorem keepsStanding_setHighlights (id : Nat) (v : Value) :
    KeepsStanding (setHighlights id v) := by
  intro e standing
  have same : ∀ e' : Editor,
      e'.unpainted = (e.updateBehavior id fun b => { b with highlights := v }).unpainted →
      e'.core = e.core := by
    intro e' painted
    have h := core_of_unpainted painted
    exact h
  refine (ends_setHighlights e id v).imp (fun _ e' painted => ?_) fun _ e' painted => ?_
  · rw [same e' painted]
    exact standing
  · rw [same e' painted.1]
    exact standing

theorem keepsStanding_uninstall (id : Nat) : KeepsStanding (uninstall id) := by
  have leave : KeepsStanding (modify fun e =>
      { e with optionFollowers := e.optionFollowers.erase (.behavior id) }) := by
    intro e standing
    obtain ⟨ids, followers⟩ := standing.1.followers
    have left : e.optionFollowers.erase (.behavior id) =
        .editor :: (ids.erase id).map .behavior := by
      rw [show e.optionFollowers = .editor :: ids.map .behavior from followers, erase_behavior]
    show Core.Standing { e.core with
      optionFollowers := e.optionFollowers.erase (.behavior id) }
    rw [left]
    exact standing.follow
  have clear : KeepsStanding (modify fun e =>
      let e := { e with treeFollowers := e.treeFollowers.erase id }
      let e := (e.detachHighlighter id).setHighlighter id none
      (e.attach .idle).rehighlight .idle) := by
    refine keepsStanding_modify fun e => ?_
    let e₁ : Editor := { e with treeFollowers := e.treeFollowers.erase id }
    have painted : ((((e₁.detachHighlighter id).setHighlighter id none).attach .idle).rehighlight
        .idle).unpainted = e₁.unpainted := by simp
    exact (core_of_unpainted painted).trans rfl
  unfold uninstall
  refine leave.bind fun _ => KeepsStanding.bind keepsStanding_get fun e => ?_
  split
  · exact clear
  · exact keepsStanding_pure _

theorem keepsStanding_removeBehavior (kind : BehaviorKind) :
    KeepsStanding (removeBehavior kind) := by
  unfold removeBehavior
  refine KeepsStanding.bind keepsStanding_get fun e => ?_
  refine KeepsStanding.bind (keepsStanding_modify fun _ => rfl) fun _ => ?_
  refine KeepsStanding.bind (fun e' standing => ?_) fun _ => keepsStanding_pure _
  exact Editing.ends_forM (fun id _ e standing => keepsStanding_uninstall id e standing) standing

theorem keepsStanding_install (kind : BehaviorKind) : KeepsStanding (install kind) := by
  have join (id : Nat) : KeepsStanding (modify fun e : Editor =>
      { e with
        behaviors := e.behaviors ++ [{ kind }]
        optionFollowers := e.optionFollowers ++ [.behavior id] }) := by
    intro e standing
    obtain ⟨ids, followers⟩ := standing.1.followers
    have joined : e.optionFollowers ++ [.behavior id] = .editor :: (ids ++ [id]).map .behavior := by
      rw [show e.optionFollowers = .editor :: ids.map .behavior from followers]
      simp
    show Core.Standing { e.core with optionFollowers := e.optionFollowers ++ [.behavior id] }
    rw [joined]
    exact standing.follow
  unfold install
  refine KeepsStanding.bind keepsStanding_get fun e => (join e.behaviors.length).bind fun _ => ?_
  dsimp only
  split
  · refine KeepsStanding.bind (keepsStanding_modify fun _ => rfl) fun _ => ?_
    refine KeepsStanding.bind keepsStanding_get fun e' => ?_
    exact (keepsStanding_setHighlights _ _).bind fun _ => keepsStanding_pure _
  · exact keepsStanding_pure _

theorem keepsStanding_addBehavior (kind : BehaviorKind) : KeepsStanding (addBehavior kind) := by
  unfold addBehavior
  refine (keepsStanding_removeBehavior kind).bind fun _ => ?_
  refine (keepsStanding_install kind).bind fun _ => ?_
  exact KeepsStanding.bind (keepsStanding_modify fun _ => rfl) fun _ => keepsStanding_pure _

/-- An editor with further behaviors. -/
def withBehaviors (e : Editor) (kinds : List BehaviorKind) : Editor :=
  kinds.foldl (fun e kind => ((addBehavior kind).runOn e).2) e

theorem standing_withBehaviors {kinds : List BehaviorKind} (standing : e.core.Standing) :
    (e.withBehaviors kinds).core.Standing := by
  induction kinds generalizing e with
  | nil => exact standing
  | cons kind kinds ih =>
    refine ih ?_
    show ((addBehavior kind).runOn e).2.core.Standing
    rcases Editing.ends_iff.mp (keepsStanding_addBehavior kind e standing) with
      ⟨_, e', run, standing⟩ | ⟨_, e', run, standing⟩ <;>
      (rw [run]; exact standing)

/-- **When an editor parses its text.**  Take a new editor with behaviors, and any moves about texts
    and parsers, each with a reaction of those who follow the tree.  After each move the text has
    been parsed, and what the pass led to is in use; and each move keeps the law of passes. -/
theorem law_runAll {given : Table Setting} (steady : (Setting.options given).Steady)
    {ds : Descriptors} {e : Editor} (made : Editor.new (Setting.options given) ds = .ok e)
    (kinds : List BehaviorKind) (steps : List (Move × Reaction))
    (fits : ∀ s ∈ steps, s.1.OfParsing) :
    (∃ i o, ((e.withBehaviors kinds).runAll steps).core.Settled i o) ∧
      ∀ m r, m.OfParsing → ((e.withBehaviors kinds).runAll steps).Law m r := by
  have standing : ((e.withBehaviors kinds).runAll steps).core.Standing :=
    standing_runAll (standing_withBehaviors (standing_new steady made)) fits
  exact ⟨standing.2, fun m r fits => (law_after standing fits).1⟩

/-- Behaviors show the tree, and the contents are reported as changed once or twice. -/
def restless : Reaction :=
  .act showTrees Reaction.quiet_showTrees <| .report showTrees <|
    .look fun e => if e.tree.tree.isEmpty then .done else .report showTrees .done

/-- A text, a report, another way to handle failures, and a pass under force. -/
def restlessSteps : List (Move × Reaction) :=
  [(.edit "a = 1", restless), (.report, restless),
    (.update (.ofList [("keep_last_good", .plain (.bool true))]), restless), (.force, .done)]

/-- A reset after these moves. -/
theorem law_runAll_restless :
    ∃ e, Editor.new (Setting.options .empty) (.empty .lyql) = .ok e ∧
      (∃ i o, ((e.withBehaviors [.highlighting, .plain]).runAll restlessSteps).core.Settled i o) ∧
      ((e.withBehaviors [.highlighting, .plain]).runAll restlessSteps).Law
        (.reset ["keep_last_good"]) restless := by
  obtain ⟨e, made, -⟩ := exists_new Table.fit_empty (.empty .lyql)
  have steady : (Setting.options .empty).Steady := by
    refine ⟨rfl, fun s hs => ?_⟩
    obtain rfl : Setting.parser .lyql = s := Option.some.inj hs
    exact Parser.steady_lyql
  have fits : ∀ s ∈ restlessSteps, s.1.OfParsing := by
    simp only [restlessSteps, List.forall_mem_cons]
    refine ⟨trivial, trivial, fun key s h => ?_, trivial, by simp⟩
    simp only [Table.ofList, List.foldl_cons, List.foldl_nil, Table.get?_insert,
      Table.get?_empty] at h
    split at h
    · obtain rfl := Option.some.inj h
      exact ⟨.inr ‹_›, fun _ _ h => by cases h⟩
    · cases h
  obtain ⟨settled, law⟩ := law_runAll steady made [.highlighting, .plain] restlessSteps fits
  exact ⟨e, made, settled, law _ _ ⟨List.nodup_singleton _, by simp [ParserKey]⟩⟩

end Editor

end LyqlHighlight
