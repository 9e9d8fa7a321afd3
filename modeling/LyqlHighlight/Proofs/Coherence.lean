import LyqlHighlight.Proofs.Following
import LyqlHighlight.Proofs.InStep
import Mathlib.Logic.Relation

namespace LyqlHighlight

/-!
# Behaviors in keeping with their editor

Texts and options change, and behaviors come and go.  As long as nobody who is told of it breaks
off, the behaviors that are held are the ones that follow, each of them shows what the editor has,
and those that have been removed stay as they are.

* `Editor.Coherent` — the behaviors are in keeping with their editor;
* `Editor.Leaves` — behaviors that are not held any more stay as they are;
* `Editor.Step`, `Editor.Reaches` — what can happen to an editor;
* `Editor.coherent_removeBehavior`, `Editor.coherent_addBehavior`, `Editor.coherent_perform` — what
  a step keeps;
* `Editor.coherent_of_reaches` — the main result.
-/

namespace Editor

variable {e e' : Editor}

/-- The behaviors are in keeping with their editor. -/
structure Coherent (e : Editor) : Prop extends e.Attached where
  /-- The one that highlights has a highlighter exactly if the options ask for highlights, in the
      formats of these highlights. -/
  styles : ∀ id ∈ e.heldOf .highlighting, e.Styles id
  /-- Its highlighter shows the tree of the editor. -/
  shows : ∀ id ∈ e.heldOf .highlighting, e.Shows id

/-- Behaviors that are not held are told nothing: they stay as they are, and are not held again. -/
def Leaves (e e' : Editor) : Prop :=
  ∀ id < e.behaviors.length, id ∉ e.held → id ∉ e'.held ∧ e'.behaviors[id]? = e.behaviors[id]?

theorem Leaves.refl (e : Editor) : e.Leaves e :=
  fun _ _ gone => ⟨gone, rfl⟩

theorem Leaves.trans {e₁ : Editor} (h : e.Leaves e₁) (h' : e₁.Leaves e') : e.Leaves e' := by
  intro id there gone
  obtain ⟨gone₁, same⟩ := h id there gone
  have there₁ : id < e₁.behaviors.length := by
    rw [List.getElem?_eq_getElem there] at same
    exact (List.getElem?_eq_some_iff.mp same).1
  obtain ⟨gone', same'⟩ := h' id there₁ gone₁
  exact ⟨gone', same'.trans same⟩

/-! ### Texts and options -/

/-- What those who follow the editor change leaves it coherent, if those who did not style as the
    options say have read their highlights again. -/
theorem Refreshes.coherent {renewed : List Nat} (h : e.Refreshes renewed e')
    (attached : e.Attached) (shows : ∀ id ∈ e.treeFollowers, e.Shows id)
    (styles : ∀ id ∈ e.treeFollowers, id ∈ renewed ∨ e.Styles id) :
    e'.Coherent ∧ e.Leaves e' := by
  have attached' : e'.Attached := attached.of_wiring h.wiring
  have same : e'.heldOf .highlighting = e.treeFollowers := by
    rw [← attached'.treeFollowers]
    exact congrArg Wiring.treeFollowers h.wiring
  refine ⟨⟨attached', ?_, ?_⟩, fun id _ gone => ⟨?_, h.others id fun follows => ?_⟩⟩
  · rw [same]
    exact fun id hid => h.styles id hid (styles id hid)
  · rw [same]
    exact h.shows shows
  · rw [show e'.held = e.held from congrArg Wiring.held h.wiring]
    exact gone
  · exact gone (attached.mem_treeFollowers.mp follows).1

theorem Coherent.of_refreshes {renewed : List Nat} (h : e.Coherent)
    (told : e.Refreshes renewed e') : e'.Coherent ∧ e.Leaves e' := by
  have styles := h.styles
  have shows := h.shows
  rw [← h.treeFollowers] at styles shows
  exact told.coherent h.toAttached shows fun id hid => .inr (styles id hid)

/-- An editor stays coherent if its options change, but not the highlights that they give. -/
theorem Coherent.withOptions (h : e.Coherent) {options : Options Setting}
    (kept : { e with options }.highlights = e.highlights) : { e with options }.Coherent where
  toAttached := h.toAttached.of_wiring rfl
  styles id hid := (h.styles id hid).of_same kept rfl rfl
  shows id hid := (h.shows id hid).of_same rfl rfl rfl

theorem coherent_changeOptions {change : OptionChange Setting} {keys : List String}
    (h : e.Coherent) (announces : e.options.Announces change keys)
    (run : (changeOptions change showTrees).runOn e = (.ok (), e')) :
    e'.Coherent ∧ e.Leaves e' := by
  let changed : Editor := { e with options := change.options }
  obtain ⟨renewed, told, all⟩ := exists_refreshes h.toAttached announces run
  have follows : ∀ {id}, id ∈ changed.treeFollowers → id ∈ e.heldOf .highlighting :=
    fun hid => h.treeFollowers ▸ hid
  have attached : changed.Attached := h.toAttached.of_wiring rfl
  have shows : ∀ id ∈ changed.treeFollowers, changed.Shows id :=
    fun id hid => (h.shows id (follows hid)).of_same rfl rfl rfl
  refine told.coherent attached shows fun id hid => ?_
  by_cases named : "highlights" ∈ keys
  · exact .inl (all named id (mem_heldOf.mp (follows hid)).1)
  · -- The highlights are not announced, so the options give the same ones as before.
    have kept : changed.highlights = e.highlights := by
      unfold highlights
      rw [show changed.options = change.options from rfl, announces.others _ named]
    exact .inr ((h.styles id (follows hid)).of_same kept rfl rfl)

/-- A move that is done keeps an editor coherent. -/
theorem coherent_perform {m : Move} (h : e.Coherent)
    (run : (m.perform showTrees).runOn e = (.ok (), e')) : e'.Coherent ∧ e.Leaves e' := by
  cases m with
  | edit text =>
    obtain ⟨document, painted⟩ :=
      exists_rehighlightAll { e with document := e.document.setText text }
    have pass : (reparse false showTrees).runOn { e with document } = (.ok (), e') := by
      rw [← painted]
      exact run
    exact h.of_refreshes ((e.refreshes_beside _ _ _ _ _).trans (refreshes_reparse pass))
  | report => exact h.of_refreshes (refreshes_reparse run)
  | force => exact h.of_refreshes (refreshes_reparse run)
  | update values =>
    exact coherent_changeOptions h (e.options.announces_update values) run
  | reset keys =>
    have run : (changeOptions (e.options.reset keys) showTrees).runOn e = (.ok (), e') := run
    rcases made : (e.options.reset keys).error with _ | error
    · have once := Options.error_reset_eq_none_iff.mp made
      exact coherent_changeOptions h (e.options.announces_reset once) run
    · rw [runOn_changeOptions_of_some showTrees made] at run
      cases run

/-! ### Behaviors that go -/

/-- A behavior that does not follow any more. -/
structure Released (id : Nat) (e e' : Editor) : Prop where
  /-- It follows neither the options nor the tree. -/
  wiring : e'.wiring =
    { e.wiring with
      optionFollowers := e.optionFollowers.erase (.behavior id)
      treeFollowers := e.treeFollowers.erase id }
  /-- What there is to show stays. -/
  kept : e'.options = e.options ∧ e'.descriptors = e.descriptors ∧ e'.tree = e.tree ∧
    e'.parsedText = e.parsedText
  /-- All other behaviors stay. -/
  others : ∀ i, i ≠ id → e'.behaviors[i]? = e.behaviors[i]?

theorem released_uninstall {id : Nat} (follows : id ∈ e.treeFollowers →
      e.behaviors[id]?.any (·.kind = .highlighting) = true)
    (run : (uninstall id).runOn e = (.ok (), e')) : e.Released id e' := by
  let left : Editor := { e with optionFollowers := e.optionFollowers.erase (.behavior id) }
  let quiet : Editor := { left with treeFollowers := left.treeFollowers.erase id }
  have unfolded : (uninstall id).runOn e =
      (if e.behaviors[id]?.any (·.kind = .highlighting) then
        modify fun e =>
          let e := { e with treeFollowers := e.treeFollowers.erase id }
          let e := (e.detachHighlighter id).setHighlighter id none
          (e.attach .idle).rehighlight .idle
      else pure () : Editing Unit).runOn left := rfl
  rw [unfolded] at run
  split at run
  · obtain ⟨-, rfl⟩ := Prod.mk.inj run
    have painted : ((((quiet.detachHighlighter id).setHighlighter id none).attach .idle).rehighlight
        .idle).unpainted = quiet.unpainted := by simp
    refine ⟨wiring_of_unpainted (e := quiet) painted, kept_of_unpainted (e := quiet) painted,
      fun i hi => ?_⟩
    show ((quiet.detachHighlighter id).setHighlighter id none).behaviors[i]? = _
    rw [getElem?_setHighlighter, if_neg (Ne.symm hi), behaviors_detachHighlighter]
  · next other =>
    obtain ⟨-, rfl⟩ := Prod.mk.inj run
    have same : e.treeFollowers.erase id = e.treeFollowers :=
      List.erase_of_not_mem fun hid => other (follows hid)
    refine ⟨?_, ⟨rfl, rfl, rfl, rfl⟩, fun _ _ => rfl⟩
    rw [same]
    rfl

/-- The editor without its behaviors of a kind. -/
structure Without (kind : BehaviorKind) (e e' : Editor) : Prop where
  /-- They are not held, and do not follow. -/
  wiring : e'.wiring =
    { e.wiring with
      held := e.held.filter (· ∉ e.heldOf kind)
      optionFollowers := .editor :: (e.held.filter (· ∉ e.heldOf kind)).map .behavior
      treeFollowers := (e.heldOf .highlighting).filter (· ∉ e.heldOf kind) }
  /-- What there is to show stays. -/
  kept : e'.options = e.options ∧ e'.descriptors = e.descriptors ∧ e'.tree = e.tree ∧
    e'.parsedText = e.parsedText
  /-- All other behaviors stay. -/
  others : ∀ id ∉ e.heldOf kind, e'.behaviors[id]? = e.behaviors[id]?

theorem without_removeBehavior {kind : BehaviorKind} {removed : Option Nat} (attached : e.Attached)
    (run : (removeBehavior kind).runOn e = (.ok removed, e')) : e.Without kind e' := by
  let dropped : Editor := { e with held := e.held.filter (· ∉ e.heldOf kind) }
  have unfolded : (removeBehavior kind).runOn e =
      (do (e.heldOf kind).forM uninstall; return (e.heldOf kind).head? :
        Editing (Option Nat)).runOn dropped := rfl
  rw [unfolded] at run
  obtain ⟨_, e₁, loop, last⟩ := Editing.exists_of_runOn_bind run
  obtain ⟨-, rfl⟩ := Prod.mk.inj last
  rcases Nat.le_one_iff_eq_zero_or_eq_one.mp (attached.single kind) with nothing | one
  · have nothing := List.length_eq_zero_iff.mp nothing
    rw [nothing] at loop
    obtain ⟨-, rfl⟩ := Prod.mk.inj loop
    refine ⟨?_, ⟨rfl, rfl, rfl, rfl⟩, fun _ _ => rfl⟩
    simp [wiring, dropped, nothing, attached.optionFollowers, attached.treeFollowers]
  · obtain ⟨id, hid⟩ := List.length_eq_one_iff.mp one
    rw [hid] at loop
    obtain ⟨e₂, first, rest⟩ := Editing.exists_of_runOn_forM loop
    obtain ⟨-, rfl⟩ := Prod.mk.inj rest
    have follows : id ∈ dropped.treeFollowers →
        dropped.behaviors[id]?.any (·.kind = .highlighting) = true := by
      intro hid
      obtain ⟨-, b, there, kind⟩ := attached.mem_treeFollowers.mp hid
      show e.behaviors[id]?.any _ = true
      rw [there]
      simpa using kind
    have released := released_uninstall follows first
    -- To erase the one that is removed is to keep all others, as nobody is held twice.
    have erase : ∀ ids : List Nat, ids.Nodup → ids.erase id = ids.filter (· ∉ e.heldOf kind) := by
      intro ids distinct
      rw [hid, distinct.erase_eq_filter]
      refine List.filter_congr fun i _ => ?_
      rw [Bool.eq_iff_iff]
      simp
    have held : e.optionFollowers.erase (.behavior id) =
        .editor :: (e.held.filter (· ∉ e.heldOf kind)).map .behavior := by
      rw [attached.optionFollowers, erase_behavior, erase _ attached.distinct]
    have tree : e.treeFollowers.erase id =
        (e.heldOf .highlighting).filter (· ∉ e.heldOf kind) := by
      rw [attached.treeFollowers]
      exact erase _ (attached.distinct.filter _)
    refine ⟨?_, released.kept, fun i hi => released.others i ?_⟩
    · rw [released.wiring, ← held, ← tree]
      rfl
    · rw [hid] at hi
      exact mt List.mem_singleton.mpr hi

/-- With its behaviors of a kind removed, an editor is coherent, and holds none of this kind. -/
theorem coherent_removeBehavior {kind : BehaviorKind} {removed : Option Nat} (h : e.Coherent)
    (run : (removeBehavior kind).runOn e = (.ok removed, e')) :
    e'.Coherent ∧ e.Leaves e' ∧ e'.heldOf kind = [] := by
  have without := without_removeBehavior h.toAttached run
  obtain ⟨options, descriptors, tree, text⟩ := without.kept
  have held : e'.held = e.held.filter (· ∉ e.heldOf kind) := congrArg Wiring.held without.wiring
  have kinds : e'.behaviors.map Behavior.kind = e.behaviors.map Behavior.kind :=
    congrArg Wiring.kinds without.wiring
  have length : e'.behaviors.length = e.behaviors.length := by
    simpa using congrArg List.length kinds
  have of_kind : ∀ k, e'.heldOf k = (e.heldOf k).filter (· ∉ e.heldOf kind) := by
    intro k
    rw [heldOf_of_kinds (e := { e with held := e.held.filter (· ∉ e.heldOf kind) }) held kinds]
    show (e.held.filter _).filter _ = (e.held.filter _).filter _
    rw [List.filter_comm]
  have stays : ∀ {id}, id ∈ e'.heldOf .highlighting →
      id ∈ e.heldOf .highlighting ∧ e'.behaviors[id]? = e.behaviors[id]? := by
    intro id hid
    rw [of_kind, List.mem_filter] at hid
    have other : id ∉ e.heldOf kind := by simpa using hid.2
    exact ⟨hid.1, without.others id other⟩
  refine ⟨⟨⟨?_, ?_, fun k => ?_, ?_, ?_⟩, ?_, ?_⟩, fun id _ gone => ⟨?_, ?_⟩, ?_⟩
  · rw [held]
    exact h.distinct.filter _
  · intro id hid
    rw [held] at hid
    rw [length]
    exact h.known id (List.mem_filter.mp hid).1
  · rw [of_kind]
    exact (List.length_filter_le _ _).trans (h.single k)
  · rw [held]
    exact congrArg Wiring.optionFollowers without.wiring
  · rw [of_kind]
    exact congrArg Wiring.treeFollowers without.wiring
  · intro id hid
    obtain ⟨before, same⟩ := stays hid
    exact (h.styles id before).of_same (highlights_of_options options)
      (congrArg Descriptors.registry descriptors) same
  · intro id hid
    obtain ⟨before, same⟩ := stays hid
    exact (h.shows id before).of_same tree text same
  · rw [held]
    exact fun hid => gone (List.mem_filter.mp hid).1
  · exact without.others id fun hid => gone (mem_heldOf.mp hid).1
  · rw [of_kind, List.filter_eq_nil_iff]
    exact fun id hid other => by simp [hid] at other

/-! ### Behaviors that come -/

/-- An editor with a new behavior that follows what it has to, but is not held yet. -/
def joined (e : Editor) (kind : BehaviorKind) : Editor :=
  { e with
    behaviors := e.behaviors ++ [{ kind }]
    optionFollowers := e.optionFollowers ++ [.behavior e.behaviors.length]
    treeFollowers :=
      if kind = .highlighting then e.treeFollowers ++ [e.behaviors.length] else e.treeFollowers }

/-- An editor with a new behavior that is held. -/
def welcomed (e : Editor) (kind : BehaviorKind) : Editor :=
  { e.joined kind with held := e.held ++ [e.behaviors.length] }

theorem getElem?_joined_of_lt {kind : BehaviorKind} {id : Nat} (there : id < e.behaviors.length) :
    (e.joined kind).behaviors[id]? = e.behaviors[id]? :=
  List.getElem?_append_left there

theorem getElem?_joined_self (kind : BehaviorKind) :
    (e.joined kind).behaviors[e.behaviors.length]? = some { kind } :=
  List.getElem?_concat_length

/-- To install a behavior is to have it follow what it has to, and to read its highlights. -/
theorem exists_refreshes_install {kind : BehaviorKind} {id : Nat}
    (run : (install kind).runOn e = (.ok id, e')) :
    id = e.behaviors.length ∧ ∃ renewed,
      (kind = .highlighting → e.behaviors.length ∈ renewed) ∧
        (e.joined kind).Refreshes renewed e' := by
  cases kind with
  | plain =>
    have unfolded : (install .plain).runOn e = (.ok e.behaviors.length, e.joined .plain) := rfl
    rw [unfolded] at run
    obtain ⟨hid, rfl⟩ := Prod.mk.inj run
    exact ⟨(Except.ok.inj hid).symm, [], nofun, .refl _⟩
  | highlighting =>
    rw [runOn_install_highlighting] at run
    obtain ⟨_, e₁, given, last⟩ := Editing.exists_of_runOn_bind run
    obtain ⟨hid, rfl⟩ := Prod.mk.inj last
    have told := refreshes_setHighlights (e := e.joined .highlighting)
      (getElem?_joined_self .highlighting) (List.mem_append_right _ List.mem_cons_self) given
    exact ⟨(Except.ok.inj hid).symm, _, fun _ => List.mem_cons_self, told⟩

theorem heldOf_welcomed (attached : e.Attached) (kind k : BehaviorKind) :
    (e.welcomed kind).heldOf k =
      e.heldOf k ++ if kind = k then [e.behaviors.length] else [] := by
  have old : e.held.filter (fun id => (e.joined kind).behaviors[id]?.any (·.kind = k)) =
      e.heldOf k := by
    refine List.filter_congr fun id hid => ?_
    rw [getElem?_joined_of_lt (attached.known id hid)]
  show (e.held ++ [e.behaviors.length]).filter
    (fun id => (e.joined kind).behaviors[id]?.any (·.kind = k)) = _
  rw [List.filter_append, old, List.filter_singleton, getElem?_joined_self]
  simp

/-- A new behavior may be held if there is no other of its kind. -/
theorem attached_welcomed {kind : BehaviorKind} (h : e.Attached) (nothing : e.heldOf kind = []) :
    (e.welcomed kind).Attached := by
  have of_kind := heldOf_welcomed h kind
  refine ⟨?_, fun id hid => ?_, fun k => ?_, ?_, ?_⟩
  · refine List.nodup_append.mpr ⟨h.distinct, List.nodup_singleton _, ?_⟩
    rintro id hid _ hnew rfl
    exact absurd (h.known id hid) (by simp [List.mem_singleton.mp hnew])
  · have length : (e.welcomed kind).behaviors.length = e.behaviors.length + 1 :=
      List.length_append
    rw [length]
    rcases List.mem_append.mp hid with hid | hnew
    · exact (h.known id hid).trans (Nat.lt_succ_self _)
    · rw [List.mem_singleton.mp hnew]
      exact Nat.lt_succ_self _
  · rw [of_kind]
    by_cases hk : kind = k
    · subst hk
      simp [nothing]
    · rw [if_neg hk, List.append_nil]
      exact h.single k
  · show e.optionFollowers ++ _ = _
    rw [h.optionFollowers]
    simp [welcomed]
  · rw [of_kind]
    show (if kind = .highlighting then _ else _) = _
    rw [h.treeFollowers]
    split <;> simp

/-- Whoever follows the tree then is the new behavior or has followed it before. -/
theorem follows_joined {kind : BehaviorKind} {id : Nat} (h : e.Attached)
    (follows : id ∈ (e.joined kind).treeFollowers) :
    (kind = .highlighting ∧ id = e.behaviors.length) ∨
      (id ∈ e.heldOf .highlighting ∧ id < e.behaviors.length) := by
  have before : ∀ i ∈ e.treeFollowers, i ∈ e.heldOf .highlighting ∧ i < e.behaviors.length := by
    intro i hi
    rw [h.treeFollowers] at hi
    exact ⟨hi, h.known i (mem_heldOf.mp hi).1⟩
  unfold joined at follows
  dsimp only at follows
  split at follows
  · next highlighting =>
    rcases List.mem_append.mp follows with old | new
    · exact .inr (before id old)
    · exact .inl ⟨highlighting, List.mem_singleton.mp new⟩
  · exact .inr (before id follows)

/-- Once a new behavior has read its highlights it may be held. -/
theorem coherent_welcomed {kind : BehaviorKind} {renewed : List Nat} (h : e.Coherent)
    (nothing : e.heldOf kind = []) (told : (e.joined kind).Refreshes renewed e')
    (new : kind = .highlighting → e.behaviors.length ∈ renewed) :
    { e' with held := e'.held ++ [e.behaviors.length] }.Coherent ∧
      e.Leaves { e' with held := e'.held ++ [e.behaviors.length] } := by
  let after : Editor := { e' with held := e'.held ++ [e.behaviors.length] }
  have held : after.held = e.held ++ [e.behaviors.length] := by
    rw [← show e'.held = e.held from congrArg Wiring.held told.wiring]
  have wiring : after.wiring = (e.welcomed kind).wiring := by
    show { e'.wiring with held := after.held } = _
    rw [told.wiring, held]
    rfl
  have attached : after.Attached := (attached_welcomed h.toAttached nothing).of_wiring wiring
  have followers : after.heldOf .highlighting = (e.joined kind).treeFollowers :=
    attached.treeFollowers.symm.trans (congrArg Wiring.treeFollowers told.wiring)
  have styles : ∀ i ∈ (e.joined kind).treeFollowers, e'.Styles i := by
    intro i hi
    refine told.styles i hi ?_
    rcases follows_joined h.toAttached hi with ⟨highlighting, rfl⟩ | ⟨before, there⟩
    · exact .inl (new highlighting)
    · exact .inr ((h.styles i before).of_same rfl rfl (getElem?_joined_of_lt there))
  have shows : ∀ i ∈ (e.joined kind).treeFollowers, e'.Shows i := by
    refine told.shows fun i hi => ?_
    rcases follows_joined h.toAttached hi with ⟨-, rfl⟩ | ⟨before, there⟩
    · -- The new behavior has no highlighter before it reads its highlights.
      refine shows_of_absent ?_
      unfold highlighter?
      rw [getElem?_joined_self]
      rfl
    · exact (h.shows i before).of_same rfl rfl (getElem?_joined_of_lt there)
  refine ⟨⟨attached, fun i hi => ?_, fun i hi => ?_⟩, fun i there gone => ⟨?_, ?_⟩⟩
  · exact (styles i (followers ▸ hi)).of_same rfl rfl rfl
  · exact (shows i (followers ▸ hi)).of_same rfl rfl rfl
  · rw [held, List.mem_append]
    rintro (before | self)
    · exact gone before
    · exact absurd there (by simp [List.mem_singleton.mp self])
  · refine (told.others i fun hi => ?_).trans (getElem?_joined_of_lt there)
    rcases follows_joined h.toAttached hi with ⟨-, rfl⟩ | ⟨before, -⟩
    · exact absurd there (Nat.lt_irrefl _)
    · exact gone (mem_heldOf.mp before).1

/-- With a new behavior in place of those of its kind, an editor is coherent. -/
theorem coherent_addBehavior {kind : BehaviorKind} {added : Option Nat × Nat} (h : e.Coherent)
    (run : (addBehavior kind).runOn e = (.ok added, e')) : e'.Coherent ∧ e.Leaves e' := by
  unfold addBehavior at run
  obtain ⟨old, e₁, removed, rest⟩ := Editing.exists_of_runOn_bind run
  obtain ⟨id, e₂, installed, last⟩ := Editing.exists_of_runOn_bind rest
  obtain ⟨-, rfl⟩ := Prod.mk.inj last
  obtain ⟨h₁, leaves, nothing⟩ := coherent_removeBehavior h removed
  obtain ⟨rfl, renewed, new, told⟩ := exists_refreshes_install installed
  obtain ⟨coherent, leaves₁⟩ := coherent_welcomed h₁ nothing told new
  exact ⟨coherent, leaves.trans leaves₁⟩

/-! ### Runs -/

/-- A new editor is coherent: it holds no behavior. -/
theorem coherent_new {options : Options Setting} {ds : Descriptors}
    (made : Editor.new options ds = .ok e) : e.Coherent := by
  let blank : Editor := { options, descriptors := ds }
  have nothing : blank.Coherent :=
    ⟨⟨List.nodup_nil, nofun, fun _ => Nat.zero_le 1, rfl, rfl⟩, nofun, nofun⟩
  rcases run : (readOptions options.keys).runOn blank with ⟨_ | _, e₁⟩
  · rw [new_of_runOn run] at made
    cases made
  · rw [new_of_runOn run] at made
    obtain rfl := Except.ok.inj made
    have read := nothing.of_refreshes (refreshes_readOptions run)
    exact (read.1.of_refreshes (e₁.refreshes_beside _ _ _ _ _)).1

/-- What can happen to an editor as long as nobody who is told of it breaks off. -/
inductive Step (e : Editor) : Editor → Prop where
  /-- A move is done. -/
  | move (m : Move) {e' : Editor} (run : (m.perform showTrees).runOn e = (.ok (), e')) : e.Step e'
  /-- A behavior is added. -/
  | add (kind : BehaviorKind) {added : Option Nat × Nat} {e' : Editor}
      (run : (addBehavior kind).runOn e = (.ok added, e')) : e.Step e'
  /-- The behaviors of a kind are removed. -/
  | remove (kind : BehaviorKind) {removed : Option Nat} {e' : Editor}
      (run : (removeBehavior kind).runOn e = (.ok removed, e')) : e.Step e'
  /-- A reset breaks off itself, so nobody is told of what it has dropped by then.  The options still
      give the highlights that they gave. -/
  | untold (keys : List String) {error : MissingKey} {e' : Editor}
      (off : (e.options.reset keys).error = some error)
      (run : ((Move.reset keys).perform showTrees).runOn e = (.error (.missingKey error), e'))
      (kept : e'.highlights = e.highlights) : e.Step e'

/-- What an editor can become. -/
def Reaches : Editor → Editor → Prop :=
  Relation.ReflTransGen Step

theorem coherent_step (h : e.Coherent) (step : e.Step e') : e'.Coherent ∧ e.Leaves e' := by
  cases step with
  | move m run => exact coherent_perform h run
  | add kind run => exact coherent_addBehavior h run
  | remove kind run =>
    obtain ⟨coherent, leaves, -⟩ := coherent_removeBehavior h run
    exact ⟨coherent, leaves⟩
  | untold keys off run kept =>
    rw [runOn_reset, runOn_changeOptions_of_some showTrees off] at run
    obtain ⟨-, rfl⟩ := Prod.mk.inj run
    exact ⟨h.withOptions kept, fun _ _ gone => ⟨gone, rfl⟩⟩

theorem Coherent.of_reaches (h : e.Coherent) (reached : e.Reaches e') :
    e'.Coherent ∧ e.Leaves e' := by
  induction reached with
  | refl => exact ⟨h, .refl e⟩
  | tail _ step ih =>
    obtain ⟨coherent, leaves⟩ := coherent_step ih.1 step
    exact ⟨coherent, ih.2.trans leaves⟩

/-- **Behaviors are in keeping with their editor.**  Take a new editor and whatever can happen to it
    as long as nobody who is told of it breaks off: texts, options and parsers change, behaviors are
    added and removed, in any order.

    * At most one behavior of a kind is held; the options are followed by the editor and by the
      behaviors that are held, the tree by the one that highlights.
    * That one has a highlighter exactly if the options ask for highlights, with the formats of these
      highlights for the style classes of the registry.  Its tree is that of the editor, and its
      ranges are those of this tree in the text of the last pass.
    * Whatever happens then, a behavior that has been removed stays as it is. -/
theorem coherent_of_reaches {options : Options Setting} {ds : Descriptors} {e₀ : Editor}
    (made : Editor.new options ds = .ok e₀) (reached : e₀.Reaches e) :
    e.Coherent ∧ ∀ e', e.Reaches e' → e.Leaves e' := by
  have coherent := ((coherent_new made).of_reaches reached).1
  exact ⟨coherent, fun e' later => (coherent.of_reaches later).2⟩

theorem exists_add_of_highlighted {options : Options Setting} {ds : Descriptors}
    (made : highlighted options ds = .ok e) :
    ∃ e₀ added, Editor.new options ds = .ok e₀ ∧
      (addBehavior .highlighting).runOn e₀ = (.ok added, e) := by
  unfold highlighted at made
  rcases new : Editor.new options ds with error | e₀
  · rw [new] at made
    cases made
  · rw [new] at made
    rcases run : (addBehavior .highlighting).runOn e₀ with ⟨error | added, e₁⟩
    · simp [Except.bind, run] at made
    · have same : e₁ = e := by simpa [Except.bind, run] using made
      exact ⟨e₀, added, rfl, by rw [← same, run]⟩

/-- A behavior highlights a text. -/
theorem coherent_of_reaches_edit :
    ∃ e₀ e, Editor.new (Setting.options .empty) (.empty .lyql) = .ok e₀ ∧ e₀.Reaches e ∧
      e.parsedText = "a = 1" ∧ e.optionFollowers = [.editor, .behavior 0] ∧
      e.Coherent ∧ ∀ e', e.Reaches e' → e.Leaves e' := by
  obtain ⟨e₁, made₁, synced⟩ := exists_highlighted Table.fit_empty (.empty .lyql)
  obtain ⟨e₀, added, made, add⟩ := exists_add_of_highlighted made₁
  have upshot := upshot_perform (m := .edit "a = 1") synced trivial
  rcases run : ((Move.edit "a = 1").perform showTrees).runOn e₁ with ⟨result, e⟩
  rw [run] at upshot
  cases upshot with
  | done _ edited =>
    have reached : e₀.Reaches e := .tail (.single (.add .highlighting add)) (.move _ run)
    obtain ⟨coherent, leaves⟩ := coherent_of_reaches made reached
    exact ⟨e₀, e, made, reached, edited.current.trans edited.text, edited.optionFollowers, coherent,
      leaves⟩
  | fontDropped dropped => cases dropped
  | stuck _ off =>
    -- Each character of the text is one unit, so all ranges have their place.
    have unplaced := off.stuck.unplaced
    rw [off.current, off.text] at unplaced
    exact absurd (show Text.units "a = 1".toList = "a = 1".toList.length from rfl) unplaced.1

theorem fit_unhighlighted : unhighlighted.Fit := by
  have none : (Setting.plain .none).Fits "highlights" := ⟨nofun, nofun, fun _ => .inl rfl, nofun⟩
  exact Table.fit_empty.insert none

/-- A reset that names the highlights twice drops them and breaks off, so the behavior is not told
    that there are highlights again. -/
theorem not_coherent_of_reset_twice :
    ∃ e₀ e₁ e₂, Editor.new (Setting.options unhighlighted) (.empty .lyql) = .ok e₀ ∧
      e₀.Step e₁ ∧ e₁.Coherent ∧
      (e₁.options.reset ["highlights", "highlights"]).error = some ⟨"highlights"⟩ ∧
      ((Move.reset ["highlights", "highlights"]).perform showTrees).runOn e₁ =
        (.error (.missingKey ⟨"highlights"⟩), e₂) ∧ ¬e₂.Coherent := by
  obtain ⟨e₁, made₁, synced⟩ := exists_highlighted fit_unhighlighted (.empty .lyql)
  obtain ⟨e₀, added, made, add⟩ := exists_add_of_highlighted made₁
  obtain ⟨coherent, -⟩ := coherent_addBehavior (coherent_new made) add
  have off : (e₁.options.reset ["highlights", "highlights"]).error = some ⟨"highlights"⟩ := by
    rw [synced.options]
    rfl
  let e₂ : Editor :=
    { e₁ with options := (e₁.options.reset ["highlights", "highlights"]).options }
  refine ⟨e₀, e₁, e₂, made, .add .highlighting add, coherent, off,
    runOn_changeOptions_of_some showTrees off, fun coherent₂ => ?_⟩
  have held : 0 ∈ e₁.held := by
    have follows : OptionFollower.behavior 0 ∈ e₁.optionFollowers := by
      rw [synced.optionFollowers]
      simp
    rw [coherent.optionFollowers] at follows
    simpa using follows
  obtain ⟨b, behaviors, kind⟩ := synced.exists_behavior
  have highlighting : 0 ∈ e₁.heldOf .highlighting :=
    mem_heldOf.mpr ⟨held, b, by rw [behaviors]; rfl, kind⟩
  have absent : e₁.highlights = .none := by
    unfold highlights
    rw [synced.options]
    rfl
  have asked : e₂.highlights = lyqlSpecs := by
    unfold highlights
    rw [show e₂.options = (e₁.options.reset _).options from rfl, synced.options]
    rfl
  -- The behavior still has no highlighter.
  have present := (coherent₂.styles 0 highlighting).present.mpr (by rw [asked]; nofun)
  exact (coherent.styles 0 highlighting).present.mp present absent

end Editor

end LyqlHighlight
