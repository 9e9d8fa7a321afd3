import LyqlHighlight.Proofs.Editing
import LyqlHighlight.Proofs.Independence
import LyqlHighlight.Proofs.OptionChanges
import LyqlHighlight.Proofs.Painting

namespace LyqlHighlight

/-!
# Those who follow an editor

The editor follows its own options, and so does each behavior that is held; the tree is followed by
the one that highlights.  Whatever they do once they are told, nobody else is changed by it, and
who follows what stays.

* `Editor.Attached` — who follows what;
* `Editor.Shows`, `Editor.Styles` — a behavior shows the tree, in the formats that the options ask
  for;
* `Editor.Shown` — what showing the tree changes;
* `Editor.Refreshes` — what those who follow change, and which of them read their highlights again;
* `Editor.refreshes_reparse`, `Editor.refreshes_readOptions`, `Editor.exists_refreshes` — passes,
  reading settings again, and changes of options.
-/

namespace Editor

variable {e e' : Editor}

/-! ### Who follows what -/

/-- Who is there, and who follows what. -/
structure Wiring where
  /-- The kinds of all behaviors. -/
  kinds : List BehaviorKind
  /-- The numbers of the behaviors that are held. -/
  held : List Nat
  /-- Those who follow the options. -/
  optionFollowers : List OptionFollower
  /-- The numbers of the behaviors that follow the tree. -/
  treeFollowers : List Nat

/-- Who is there, and who follows what. -/
def wiring (e : Editor) : Wiring where
  kinds := e.behaviors.map Behavior.kind
  held := e.held
  optionFollowers := e.optionFollowers
  treeFollowers := e.treeFollowers

theorem wiring_of_unpainted (same : e'.unpainted = e.unpainted) : e'.wiring = e.wiring := by
  have forget : ∀ e : Editor, e.unpainted.wiring = e.wiring := by
    intro e
    simp [wiring, unpainted, Function.comp_def]
  rw [← forget e', same, forget]

theorem wiring_updateBehavior (id : Nat) {f : Behavior → Behavior}
    (same : ∀ b, (f b).kind = b.kind) : (e.updateBehavior id f).wiring = e.wiring := by
  have kinds : (e.behaviors.modify id f).map Behavior.kind = e.behaviors.map Behavior.kind :=
    map_modify same e.behaviors id
  unfold wiring
  rw [← kinds]
  rfl

theorem kept_of_unpainted (same : e'.unpainted = e.unpainted) :
    e'.options = e.options ∧ e'.descriptors = e.descriptors ∧ e'.tree = e.tree ∧
      e'.parsedText = e.parsedText := by
  have options := congrArg Editor.options same
  have descriptors := congrArg Editor.descriptors same
  have tree := congrArg Editor.tree same
  have text := congrArg Editor.parsedText same
  exact ⟨options, descriptors, tree, text⟩

theorem heldOf_of_kinds (held : e'.held = e.held)
    (kinds : e'.behaviors.map Behavior.kind = e.behaviors.map Behavior.kind)
    (kind : BehaviorKind) : e'.heldOf kind = e.heldOf kind := by
  have forget : ∀ e : Editor, e.heldOf kind =
      e.held.filter fun id => (e.behaviors.map Behavior.kind)[id]?.any (· = kind) := by
    intro e
    simp only [heldOf, List.getElem?_map, Option.any_map]
  rw [forget, held, kinds, ← forget]

theorem mem_heldOf {kind : BehaviorKind} {id : Nat} :
    id ∈ e.heldOf kind ↔ id ∈ e.held ∧ ∃ b, e.behaviors[id]? = some b ∧ b.kind = kind := by
  simp [heldOf, Option.any_eq_true]

/-- At most one behavior of a kind is held.  The options are followed by the editor and by those
    that are held, the tree by the one among them that highlights. -/
structure Attached (e : Editor) : Prop where
  /-- No behavior is held twice. -/
  distinct : e.held.Nodup
  /-- Those that are held are there. -/
  known : ∀ id ∈ e.held, id < e.behaviors.length
  /-- No two of a kind are held. -/
  single : ∀ kind, (e.heldOf kind).length ≤ 1
  /-- Those who follow the options. -/
  optionFollowers : e.optionFollowers = .editor :: e.held.map .behavior
  /-- Those who follow the tree. -/
  treeFollowers : e.treeFollowers = e.heldOf .highlighting

theorem Attached.of_wiring (h : e.Attached) (same : e'.wiring = e.wiring) : e'.Attached := by
  have kinds : e'.behaviors.map Behavior.kind = e.behaviors.map Behavior.kind :=
    congrArg Wiring.kinds same
  have held : e'.held = e.held := congrArg Wiring.held same
  have of_kind := heldOf_of_kinds held kinds
  have length : e'.behaviors.length = e.behaviors.length := by
    simpa using congrArg List.length kinds
  refine ⟨?_, ?_, ?_, ?_, ?_⟩
  · rw [held]
    exact h.distinct
  · rw [held, length]
    exact h.known
  · intro kind
    rw [of_kind]
    exact h.single kind
  · rw [held]
    exact (congrArg Wiring.optionFollowers same).trans h.optionFollowers
  · rw [of_kind]
    exact (congrArg Wiring.treeFollowers same).trans h.treeFollowers

theorem Attached.mem_treeFollowers (h : e.Attached) {id : Nat} :
    id ∈ e.treeFollowers ↔
      id ∈ e.held ∧ ∃ b, e.behaviors[id]? = some b ∧ b.kind = .highlighting := by
  rw [h.treeFollowers, mem_heldOf]

/-! ### What there is to see -/

/-- The highlighter of a behavior, if it has one, shows the tree of the editor in the text of the
    last pass. -/
structure Shows (e : Editor) (id : Nat) : Prop where
  /-- The tree. -/
  tree : ∀ h, e.highlighter? id = some h → h.tree = e.tree.tree
  /-- The ranges are those of the tree in the text. -/
  ranges : ∀ h, e.highlighter? id = some h → ∃ ranges,
    PaintRange.ofTree e.tree.tree e.parsedText.toList = .ok ranges ∧ h.index = .ofList ranges

/-- A behavior has a highlighter exactly if the options ask for highlights, and then with the
    formats of these highlights for the style classes of the registry. -/
structure Styles (e : Editor) (id : Nat) : Prop where
  /-- There is a highlighter exactly if there are to be highlights. -/
  present : (e.highlighter? id).isSome ↔ e.highlights ≠ .none
  /-- It has the formats of the highlights. -/
  formats : ∀ h, e.highlighter? id = some h →
    h.formats = (classSpecs e.descriptors.registry.rules e.highlights).map Format.ofSpec

theorem highlighter?_of_same {id : Nat} (same : e'.behaviors[id]? = e.behaviors[id]?) :
    e'.highlighter? id = e.highlighter? id :=
  congrArg (·.bind Behavior.highlighter) same

theorem Shows.of_same {id : Nat} (h : e.Shows id) (tree : e'.tree = e.tree)
    (text : e'.parsedText = e.parsedText) (same : e'.behaviors[id]? = e.behaviors[id]?) :
    e'.Shows id := by
  constructor
  · rw [highlighter?_of_same same, tree]
    exact h.tree
  · rw [highlighter?_of_same same, tree, text]
    exact h.ranges

/-- A behavior without a highlighter shows no other tree. -/
theorem shows_of_absent {id : Nat} (absent : e.highlighter? id = none) : e.Shows id := by
  constructor <;>
    (intro h there; rw [absent] at there; cases there)

theorem highlighterFor_of_ne {v : Value} (asked : v ≠ .none) :
    e.highlighterFor v = some (.ofSpecs e.descriptors.registry.rules v) := by
  unfold highlighterFor
  cases v with
  | none => exact absurd rfl asked
  | _ => rfl

theorem highlighterFor_of_registry (same : e'.descriptors.registry = e.descriptors.registry) :
    e'.highlighterFor = e.highlighterFor := by
  funext v
  unfold highlighterFor
  rw [same]

theorem styles_iff {id : Nat} :
    e.Styles id ↔ (e.highlighter? id).map Highlighter.formats =
      (e.highlighterFor e.highlights).map Highlighter.formats := by
  by_cases none : e.highlights = .none
  · rw [none, show e.highlighterFor .none = Option.none from rfl, Option.map_none,
      Option.map_eq_none_iff]
    refine ⟨fun h => by simpa [none] using h.present, fun absent => ⟨?_, ?_⟩⟩
    · simp [absent, none]
    · simp [absent]
  · rw [highlighterFor_of_ne none]
    refine ⟨fun h => ?_, fun h => ?_⟩
    · obtain ⟨h₁, there⟩ := Option.isSome_iff_exists.mp (h.present.mpr none)
      rw [there]
      exact congrArg some (h.formats h₁ there)
    · obtain ⟨h₁, there, formats⟩ := Option.map_eq_some_iff.mp h
      refine ⟨by simp [there, none], fun h₂ there₂ => ?_⟩
      obtain rfl := Option.some.inj (there.symm.trans there₂)
      exact formats

/-- What styles as the options say, does so as long as its formats, the highlights and the registry
    stay. -/
theorem Styles.of_formats {id : Nat} (h : e.Styles id) (highlights : e'.highlights = e.highlights)
    (registry : e'.descriptors.registry = e.descriptors.registry)
    (same : (e'.highlighter? id).map Highlighter.formats =
      (e.highlighter? id).map Highlighter.formats) : e'.Styles id := by
  rw [styles_iff, same, highlights, highlighterFor_of_registry registry]
  exact styles_iff.mp h

theorem Styles.of_same {id : Nat} (h : e.Styles id) (highlights : e'.highlights = e.highlights)
    (registry : e'.descriptors.registry = e.descriptors.registry)
    (same : e'.behaviors[id]? = e.behaviors[id]?) : e'.Styles id :=
  h.of_formats highlights registry
    (congrArg (Option.map Highlighter.formats) (highlighter?_of_same same))

/-! ### Showing the tree -/

/-- The tree has been shown by some behaviors.  All else is as before. -/
structure Shown (ids : List Nat) (e e' : Editor) : Prop where
  /-- To show the tree is painting. -/
  unpainted : e'.unpainted = e.unpainted
  /-- All other behaviors stay. -/
  others : ∀ id ∉ ids, e'.behaviors[id]? = e.behaviors[id]?
  /-- The formats stay. -/
  formats : ∀ id, (e'.highlighter? id).map Highlighter.formats =
    (e.highlighter? id).map Highlighter.formats
  /-- The behaviors show the tree. -/
  shows : ∀ id, id ∈ ids ∨ e.Shows id → e'.Shows id

theorem Shown.refl (e : Editor) : e.Shown [] e where
  unpainted := rfl
  others _ _ := rfl
  formats _ := rfl
  shows _ h := h.resolve_left List.not_mem_nil

theorem Shown.cons {id : Nat} {ids : List Nat} {e₁ : Editor} (first : e.Shown [id] e₁)
    (rest : e₁.Shown ids e') : e.Shown (id :: ids) e' where
  unpainted := rest.unpainted.trans first.unpainted
  others i hi := by
    obtain ⟨hid, hids⟩ := not_or.mp (mt List.mem_cons.mpr hi)
    exact (rest.others i hids).trans (first.others i (mt List.mem_singleton.mp hid))
  formats i := (rest.formats i).trans (first.formats i)
  shows i h := by
    refine rest.shows i ?_
    rcases h with hi | h
    · rcases List.mem_cons.mp hi with rfl | hi
      · exact .inr (first.shows i (.inl List.mem_cons_self))
      · exact .inl hi
    · exact .inr (first.shows i (.inr h))

theorem getElem?_setHighlighter (e : Editor) (id : Nat) (h : Option Highlighter) (i : Nat) :
    (e.setHighlighter id h).behaviors[i]? =
      if id = i then e.behaviors[i]?.map fun b => { b with highlighter := h }
      else e.behaviors[i]? := by
  show (e.behaviors.modify id _)[i]? = _
  rw [List.getElem?_modify]
  split <;> simp

/-- In place of its highlighter a behavior has been given one that shows the tree in the same
    formats. -/
theorem shown_of_drawn {id : Nat} {h drawn : Highlighter} (there : e.highlighter? id = some h)
    (formats : drawn.formats = h.formats) (tree : drawn.tree = e.tree.tree)
    (ranges : ∃ ranges, PaintRange.ofTree e.tree.tree e.parsedText.toList = .ok ranges ∧
      drawn.index = .ofList ranges) :
    e.Shown [id] ((e.setHighlighter id drawn).rehighlight (.behavior id)) := by
  let after : Editor := (e.setHighlighter id drawn).rehighlight (.behavior id)
  have own : after.highlighter? id = some drawn := by
    -- The behavior is there, since it had a highlighter.
    obtain ⟨b, hb, -⟩ := Option.bind_eq_some_iff.mp there
    show (e.setHighlighter id drawn).behaviors[id]?.bind _ = _
    rw [getElem?_setHighlighter, if_pos rfl, hb]
    rfl
  have others : ∀ i, i ≠ id → after.behaviors[i]? = e.behaviors[i]? := by
    intro i hi
    show (e.setHighlighter id drawn).behaviors[i]? = _
    rw [getElem?_setHighlighter, if_neg (Ne.symm hi)]
  refine ⟨by simp, fun i hi => others i (mt List.mem_singleton.mpr hi), fun i => ?_,
    fun i shows => ?_⟩
  · by_cases hi : i = id
    · subst hi
      rw [own, there]
      exact congrArg some formats
    · rw [highlighter?_of_same (others i hi)]
  · by_cases hi : i = id
    · subst hi
      refine ⟨fun h₁ there₁ => ?_, fun h₁ there₁ => ?_⟩ <;>
        obtain rfl := Option.some.inj (own.symm.trans there₁)
      · exact tree
      · exact ranges
    · exact (shows.resolve_left (mt List.mem_singleton.mp hi)).of_same rfl rfl (others i hi)

theorem shown_showTree {id : Nat} (run : (showTree id).runOn e = (.ok (), e')) :
    e.Shown [id] e' := by
  rw [runOn_showTree] at run
  rcases there : e.highlighter? id with _ | h
  · rw [there] at run
    obtain ⟨-, rfl⟩ := Prod.mk.inj run
    refine ⟨rfl, fun _ _ => rfl, fun _ => rfl, fun i h => ?_⟩
    rcases h with hi | h
    · obtain rfl := List.mem_singleton.mp hi
      exact shows_of_absent there
    · exact h
  · rw [there] at run
    dsimp only at run
    split at run
    · cases run
    next taken =>
    obtain ⟨ranges, hranges, hset⟩ := h.exists_setTree_eq taken
    rw [hset] at run
    obtain ⟨-, rfl⟩ := Prod.mk.inj run
    exact shown_of_drawn there rfl rfl ⟨ranges, hranges, rfl⟩

theorem shown_forM {ids : List Nat} (run : (ids.forM showTree).runOn e = (.ok (), e')) :
    e.Shown ids e' := by
  induction ids generalizing e with
  | nil =>
    obtain ⟨-, rfl⟩ := Prod.mk.inj run
    exact .refl e
  | cons id ids ih =>
    obtain ⟨e₁, first, rest⟩ := Editing.exists_of_runOn_forM run
    exact (shown_showTree first).cons (ih rest)

/-! ### What those who follow change -/

/-- Those who follow an editor have been told of something.  Some of them have read their highlights
    again; the others have kept theirs. -/
structure Refreshes (renewed : List Nat) (e e' : Editor) : Prop where
  /-- Who follows what stays. -/
  wiring : e'.wiring = e.wiring
  /-- The options stay. -/
  options : e'.options = e.options
  /-- The registry stays. -/
  registry : e'.descriptors.registry = e.descriptors.registry
  /-- Behaviors that do not follow the tree stay as they are. -/
  others : ∀ id ∉ e.treeFollowers, e'.behaviors[id]? = e.behaviors[id]?
  /-- If those who follow the tree showed it, they still do. -/
  shows : (∀ id ∈ e.treeFollowers, e.Shows id) → ∀ id ∈ e.treeFollowers, e'.Shows id
  /-- Those who have read their highlights again style as the options say, and those who did so
      before still do. -/
  styles : ∀ id ∈ e.treeFollowers, id ∈ renewed ∨ e.Styles id → e'.Styles id

theorem Refreshes.trans {first rest : List Nat} {e₁ : Editor} (h : e.Refreshes first e₁)
    (h' : e₁.Refreshes rest e') : e.Refreshes (first ++ rest) e' := by
  have followers : e₁.treeFollowers = e.treeFollowers := congrArg Wiring.treeFollowers h.wiring
  refine ⟨h'.wiring.trans h.wiring, h'.options.trans h.options, h'.registry.trans h.registry,
    fun id hid => ?_, fun shows => ?_, fun id hid styles => ?_⟩
  · exact (h'.others id (followers ▸ hid)).trans (h.others id hid)
  · have between := h'.shows
    rw [followers] at between
    exact between (h.shows shows)
  · refine h'.styles id (followers ▸ hid) ?_
    rcases styles with renewed | styles
    · rcases List.mem_append.mp renewed with early | late
      · exact .inr (h.styles id hid (.inl early))
      · exact .inl late
    · exact .inr (h.styles id hid (.inr styles))

theorem highlights_of_options (same : e'.options = e.options) : e'.highlights = e.highlights := by
  unfold highlights
  rw [same]

/-- Neither the document, nor the adapter, nor the looks of the editor matter here. -/
theorem refreshes_beside (e : Editor) (document : Document) (adapter : Adapter)
    (palette : Palette) (font : Option Value) (activity : Activity) :
    e.Refreshes [] { e with document, adapter, palette, font, activity } where
  wiring := rfl
  options := rfl
  registry := rfl
  others _ _ := rfl
  shows h id hid := (h id hid).of_same rfl rfl rfl
  styles _ _ h := (h.resolve_left List.not_mem_nil).of_same rfl rfl rfl

theorem Refreshes.refl (e : Editor) : e.Refreshes [] e :=
  e.refreshes_beside _ _ _ _ _

theorem exists_rehighlightAll (e : Editor) :
    ∃ document, e.rehighlightAll = { e with document } := by
  suffices h : ∀ (painters : List Painter) (document : Document), ∃ document',
      painters.foldl rehighlight { e with document } = { e with document := document' } from
    h _ e.document
  intro painters
  induction painters with
  | nil => exact fun document => ⟨document, rfl⟩
  | cons p painters ih => exact fun _ => ih _

/-- A pass adds descriptors, and keeps the registry. -/
theorem registry_pass (i : Inquiry) : i.pass.descriptors.registry = i.descriptors.registry := by
  obtain ⟨tags, added⟩ := i.adapter.descriptors_attempt i.descriptors i.text
  rw [show i.pass.descriptors = i.descriptors.describeAll tags from added,
    Descriptors.registry_describeAll]

/-- A pass that is done has left all as it is, or has had an outcome that was made known. -/
theorem reparse_done {force : Bool} {announce : Editing Unit}
    (run : (reparse force announce).runOn e = (.ok (), e')) :
    e' = e ∨ ∃ o, announce.runOn (e.passed o) = (.ok (), e') := by
  by_cases due : force = true ∨ e.document.text ≠ e.parsedText
  · right
    rcases returned : e.inquiry.pass.result with interrupt | o
    · obtain ⟨_, off⟩ := runOn_reparse_of_interrupted announce due returned
      rw [off] at run
      cases run
    · rw [runOn_reparse announce due returned] at run
      exact ⟨o, run⟩
  · push Not at due
    obtain ⟨unforced, same⟩ := due
    obtain rfl : force = false := by simpa using unforced
    rw [runOn_reparse_of_same announce same] at run
    exact .inl (Prod.mk.inj run).2.symm

theorem refreshes_reparse {force : Bool} (run : (reparse force showTrees).runOn e = (.ok (), e')) :
    e.Refreshes [] e' := by
  rcases reparse_done run with rfl | ⟨o, run⟩
  · exact .refl e'
  · have shown : (e.passed o).Shown e.treeFollowers e' := shown_forM run
    obtain ⟨options, descriptors, -⟩ := kept_of_unpainted shown.unpainted
    have registry : e'.descriptors.registry = e.descriptors.registry :=
      (congrArg Descriptors.registry descriptors).trans (registry_pass e.inquiry)
    have wiring : e'.wiring = (e.passed o).wiring := wiring_of_unpainted shown.unpainted
    refine ⟨wiring, options, registry, shown.others,
      fun _ id hid => shown.shows id (.inl hid), fun id _ styles => ?_⟩
    exact (styles.resolve_left List.not_mem_nil).of_formats (highlights_of_options options)
      registry (shown.formats id)

/-! ### Reading settings again -/

theorem refreshes_readParser {keys : List String}
    (run : (readParser keys showTrees).runOn e = (.ok (), e')) : e.Refreshes [] e' := by
  unfold readParser at run
  split at run
  · obtain ⟨parser, e₁, hparser, rest⟩ := Editing.exists_of_runOn_bind run
    obtain ⟨keepLastGood, e₂, hkeep, last⟩ := Editing.exists_of_runOn_bind rest
    obtain rfl := (ends_setting "parse_source").of_done hparser
    obtain rfl := (ends_setting "keep_last_good").of_done hkeep
    exact (e₂.refreshes_beside _ _ _ _ _).trans
      (refreshes_reparse (e := e₂.withParser parser keepLastGood) last)
  · obtain ⟨-, rfl⟩ := Prod.mk.inj run
    exact .refl e

theorem refreshes_readOptions {keys : List String}
    (run : (readOptions keys showTrees).runOn e = (.ok (), e')) : e.Refreshes [] e' := by
  unfold readOptions at run
  obtain ⟨_, e₁, hfont, rest⟩ := Editing.exists_of_runOn_bind run
  obtain ⟨_, e₂, hcolors, last⟩ := Editing.exists_of_runOn_bind rest
  obtain ⟨font, rfl⟩ := (ends_readFont keys).of_done hfont
  obtain ⟨palette, rfl⟩ := (ends_readColors keys).of_done hcolors
  exact (e.refreshes_beside _ _ _ _ _).trans (refreshes_readParser last)

theorem getElem?_withHighlights (e : Editor) (id : Nat) (v : Value) (i : Nat) :
    (e.withHighlights id v).behaviors[i]? =
      if id = i then
        e.behaviors[i]?.map fun b =>
          { b with highlights := v, highlighter := e.highlighterFor v }
      else e.behaviors[i]? := by
  let given := (e.updateBehavior id fun b => { b with highlights := v }).detachHighlighter id
  have asked : given.highlighterFor = e.highlighterFor := by
    obtain ⟨-, descriptors, -⟩ := kept_of_unpainted
      (unpainted_detachHighlighter (e.updateBehavior id fun b => { b with highlights := v }) id)
    exact highlighterFor_of_registry (congrArg Descriptors.registry descriptors)
  have behaviors : given.behaviors = e.behaviors.modify id fun b => { b with highlights := v } :=
    behaviors_detachHighlighter _ id
  have set : (e.withHighlights id v).behaviors =
      (given.setHighlighter id (e.highlighterFor v)).behaviors := by
    unfold withHighlights
    dsimp only
    rw [asked]
    cases e.highlighterFor v <;> rfl
  rw [set, getElem?_setHighlighter, behaviors, List.getElem?_modify]
  split <;> simp [Function.comp_def]

/-- A behavior that follows the tree reads its highlights again. -/
theorem refreshes_setHighlights {id : Nat} {b : Behavior} (there : e.behaviors[id]? = some b)
    (follows : id ∈ e.treeFollowers)
    (run : (setHighlights id e.highlights).runOn e = (.ok (), e')) : e.Refreshes [id] e' := by
  let given := e.withHighlights id e.highlights
  have shown : given.Shown [id] e' := shown_showTree run
  have painted := shown.unpainted.trans (e.unpainted_withHighlights id e.highlights)
  obtain ⟨options, descriptors, -⟩ := kept_of_unpainted painted
  have highlights : e'.highlights = e.highlights := highlights_of_options options
  have registry : e'.descriptors.registry = e.descriptors.registry :=
    congrArg Descriptors.registry descriptors
  have others : ∀ i, i ≠ id → given.behaviors[i]? = e.behaviors[i]? := by
    intro i hi
    rw [e.getElem?_withHighlights, if_neg (Ne.symm hi)]
  have own : given.highlighter? id = e.highlighterFor e.highlights := by
    show given.behaviors[id]?.bind _ = _
    rw [e.getElem?_withHighlights, if_pos rfl, there]
    rfl
  have wiring : e'.wiring = e.wiring :=
    (wiring_of_unpainted painted).trans (wiring_updateBehavior id fun _ => rfl)
  have untouched : ∀ i, i ≠ id → e'.behaviors[i]? = e.behaviors[i]? := fun i hi =>
    (shown.others i (mt List.mem_singleton.mp hi)).trans (others i hi)
  refine ⟨wiring, options, registry, fun i hi => untouched i fun h => hi (h ▸ follows),
    fun shows i hi => shown.shows i ?_, fun i _ styles => ?_⟩
  · by_cases other : i = id
    · exact .inl (List.mem_singleton.mpr other)
    · obtain ⟨-, -, tree, text⟩ := kept_of_unpainted (e.unpainted_withHighlights id e.highlights)
      exact .inr ((shows i hi).of_same tree text (others i other))
  · by_cases other : i = id
    · subst other
      rw [styles_iff, shown.formats, own, highlights, highlighterFor_of_registry registry]
    · exact (styles.resolve_left (mt List.mem_singleton.mp other)).of_same highlights registry
        (untouched i other)

/-- A behavior is told that settings have changed. -/
theorem refreshes_tell {keys : List String} {id : Nat} (attached : e.Attached)
    (held : id ∈ e.held) (named : "highlights" ∈ keys)
    (run : (tell keys showTrees (.behavior id)).runOn e = (.ok (), e')) : e.Refreshes [id] e' := by
  have unfolded : (tell keys showTrees (.behavior id)).runOn e =
      (if "highlights" ∈ keys ∧ e.behaviors[id]?.any (·.kind = .highlighting) then
        setHighlights id e.highlights else pure () : Editing Unit).runOn e := rfl
  rw [unfolded] at run
  split at run
  · next highlighting =>
    obtain ⟨b, there, kind⟩ := (Option.any_eq_true _ _).mp highlighting.2
    refine refreshes_setHighlights there ?_ run
    exact attached.mem_treeFollowers.mpr ⟨held, b, there, by simpa using kind⟩
  · next other =>
    obtain ⟨-, rfl⟩ := Prod.mk.inj run
    have unchanged := Refreshes.refl e
    refine ⟨rfl, rfl, rfl, unchanged.others, unchanged.shows, fun i hi styles => ?_⟩
    refine styles.resolve_left fun h => other ⟨named, ?_⟩
    -- The behavior does not follow the tree, as it does not highlight.
    obtain rfl := List.mem_singleton.mp h
    obtain ⟨-, b, there, kind⟩ := attached.mem_treeFollowers.mp hi
    rw [there]
    simpa using kind

/-- Several behaviors are told in a row. -/
theorem refreshes_tellAll {keys : List String} {ids : List Nat} (attached : e.Attached)
    (held : ∀ id ∈ ids, id ∈ e.held) (named : "highlights" ∈ keys)
    (run : ((ids.map OptionFollower.behavior).forM (tell keys showTrees)).runOn e =
      (.ok (), e')) : e.Refreshes ids e' := by
  induction ids generalizing e with
  | nil =>
    obtain ⟨-, rfl⟩ := Prod.mk.inj run
    exact .refl e
  | cons id ids ih =>
    obtain ⟨e₁, first, rest⟩ := Editing.exists_of_runOn_forM run
    have told := refreshes_tell attached (held id List.mem_cons_self) named first
    have held₁ : e₁.held = e.held := congrArg Wiring.held told.wiring
    refine told.trans (ih (attached.of_wiring told.wiring) (fun i hi => ?_) rest)
    rw [held₁]
    exact held i (List.mem_cons_of_mem _ hi)

/-- All who follow the options are told of a change.  Those who follow the tree read their highlights
    again if they are announced. -/
theorem exists_refreshes {change : OptionChange Setting} {keys : List String}
    (attached : e.Attached) (announces : e.options.Announces change keys)
    (run : (changeOptions change showTrees).runOn e = (.ok (), e')) :
    ∃ renewed, { e with options := change.options }.Refreshes renewed e' ∧
      ("highlights" ∈ keys → ∀ id ∈ e.held, id ∈ renewed) := by
  let changed : Editor := { e with options := change.options }
  rcases announces.announced with told | ⟨silent, rfl⟩
  · have loop : (e.optionFollowers.forM (tell keys showTrees)).runOn changed = (.ok (), e') :=
      (runOn_changeOptions showTrees announces.made told).symm.trans run
    rw [attached.optionFollowers] at loop
    obtain ⟨e₁, first, rest⟩ := Editing.exists_of_runOn_forM loop
    have read : changed.Refreshes [] e₁ := refreshes_readOptions first
    by_cases named : "highlights" ∈ keys
    · have attached₁ : e₁.Attached := attached.of_wiring read.wiring
      have held₁ : e₁.held = e.held := congrArg Wiring.held read.wiring
      have told := refreshes_tellAll attached₁ (fun id hid => held₁ ▸ hid) named rest
      exact ⟨e.held, read.trans told, fun _ _ hid => hid⟩
    · rw [idle_tell_behaviors showTrees named e.held e₁] at rest
      obtain ⟨-, rfl⟩ := Prod.mk.inj rest
      exact ⟨[], read, fun h => absurd h named⟩
  · rw [runOn_changeOptions_of_none showTrees announces.made silent] at run
    obtain ⟨-, rfl⟩ := Prod.mk.inj run
    exact ⟨[], .refl changed, fun h => absurd h List.not_mem_nil⟩

end Editor

end LyqlHighlight
