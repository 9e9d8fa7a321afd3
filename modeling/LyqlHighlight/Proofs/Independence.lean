import LyqlHighlight.Proofs.Requests
import LyqlHighlight.Proofs.Sessions

namespace LyqlHighlight

/-!
# Passes do not depend on earlier ones

The descriptors that an adapter works with remember what has been asked for, and the numbers of new
ones depend on that.  Nothing else in a tree does: two adapters over one registry that agree in
their settings come to the same result for a text, whatever either of them has been through.

* `Tree.unnumbered` — a tree without the numbers of its descriptors;
* `Tree.unnumbered_ofRoot`, `Tree.styledRanges_unnumbered` — a tree and its ranges do not
  depend on the numbers;
* `Session.Event`, `Session.after` — what can happen around an adapter and its descriptors;
* `Agree` — results that differ in the numbers of descriptors at most;
* `Session.attempt_independent` — two adapters over one registry agree.
-/

/-! ### Trees without numbers -/

/-- A descriptor without its number. -/
def Descriptor.unnumbered (d : Descriptor) : Descriptor :=
  { d with id := 0 }

namespace Tree

mutual

/-- A tree without the numbers of its descriptors. -/
def unnumbered : Tree → Tree
  | empty => empty
  | node type children length => node type.unnumbered (unnumberedChildren children) length

/-- Children without the numbers of their descriptors. -/
def unnumberedChildren : List (Int × Tree) → List (Int × Tree)
  | [] => []
  | (position, child) :: others => (position, unnumbered child) :: unnumberedChildren others

end

theorem unnumberedChildren_eq_map (children : List (Int × Tree)) :
    unnumberedChildren children = children.map fun c => (c.1, c.2.unnumbered) := by
  induction children with
  | nil => rfl
  | cons c children ih => rw [unnumberedChildren, ih, List.map_cons]

/-- The ranges of a tree do not depend on the numbers in it. -/
theorem styledRanges_unnumbered (tree : Tree) (offset : Int) :
    tree.unnumbered.styledRanges offset = tree.styledRanges offset := by
  -- Over a tree and the list of its children at once, as the walk goes.
  refine styledRanges.induct
    (fun offset tree => tree.unnumbered.styledRanges offset = tree.styledRanges offset)
    (fun offset children => childRanges offset (unnumberedChildren children) =
      childRanges offset children) ?_ ?_ ?_ ?_ offset tree
  · intro offset
    rfl
  · intro offset type children length ih
    rw [unnumbered, styledRanges, styledRanges, ih]
    rfl
  · intro offset
    rfl
  · intro offset position child others ih₁ ih₂
    rw [unnumberedChildren, childRanges, childRanges, ih₁, ih₂]

variable {ds ds' : Descriptors}

/-- The tree of a node depends on the descriptors only through their numbers. -/
theorem unnumbered_ofNode
    (same : ∀ tag, (ds.describe tag).1.unnumbered = (ds'.describe tag).1.unnumbered) (n : Node) :
    (ofNode ds n).unnumbered = (ofNode ds' n).unnumbered := by
  induction n using Node.inductionOn with
  | detached tag nodes _ => rw [ofNode_detached, ofNode_detached]
  | spanned tag span nodes ih =>
    rw [ofNode_spanned, ofNode_spanned, unnumbered, unnumbered, same, unnumberedChildren_eq_map,
      unnumberedChildren_eq_map, List.map_map, List.map_map]
    congr 1
    refine List.map_congr_left fun c hc => ?_
    exact congrArg (Prod.mk _) (ih c (Node.mem_inOrder.mp hc))

/-- The same under the root. -/
theorem unnumbered_ofRoot
    (same : ∀ tag, (ds.describe tag).1.unnumbered = (ds'.describe tag).1.unnumbered) (n : Node) :
    (ofRoot ds n).unnumbered = (ofRoot ds' n).unnumbered := by
  cases n with
  | detached tag nodes => rfl
  | spanned tag span nodes =>
    rw [ofRoot, ofRoot, unnumbered, unnumbered, same, unnumberedChildren_eq_map,
      unnumberedChildren_eq_map, List.map_singleton, List.map_singleton, unnumbered_ofNode same]

end Tree

/-! ### Descriptors over one registry -/

namespace Descriptors

/-- The descriptors have come about over a registry. -/
def Over (r : Registry) (ds : Descriptors) : Prop :=
  ∃ tags, ds = (empty r).describeAll tags

theorem over_empty (r : Registry) : (empty r).Over r :=
  ⟨[], rfl⟩

theorem Over.describeAll {r : Registry} {ds : Descriptors} (h : ds.Over r) (tags : List String) :
    (ds.describeAll tags).Over r := by
  obtain ⟨before, rfl⟩ := h
  exact ⟨before ++ tags, (describeAll_append _ _ _).symm⟩

theorem name_describe (ds : Descriptors) (tag : String) : (ds.describe tag).1.name = tag := by
  unfold describe
  split
  · next d hd => simpa using List.find?_some hd
  · rfl

/-- Descriptors over one registry give a tag the same descriptor, up to its number. -/
theorem Over.unnumbered_describe {r : Registry} {ds ds' : Descriptors} (h : ds.Over r)
    (h' : ds'.Over r) (tag : String) :
    (ds.describe tag).1.unnumbered = (ds'.describe tag).1.unnumbered := by
  obtain ⟨tags, rfl⟩ := h
  obtain ⟨tags', rfl⟩ := h'
  have name := (name_describe ((empty r).describeAll tags) tag).trans
    (name_describe ((empty r).describeAll tags') tag).symm
  have style := (style_describe r tags tag).trans (style_describe r tags' tag).symm
  unfold Descriptor.unnumbered
  rw [name, style]

end Descriptors

/-! ### Replies under other descriptors -/

namespace Reply

variable {r : Registry} {depth : Int} {ds ds' after : Descriptors} {reply : Reply}

/-- A reply that fails does so under any descriptors, for the same reason. -/
theorem Fails.under {e : Failure} (h : reply.Fails depth ds e after) (ds' : Descriptors) :
    ∃ after', reply.Fails depth ds' e after' := by
  cases h with
  | parsing => exact ⟨ds', .parsing e⟩
  | reading read => exact ⟨ds', .reading read⟩
  | @building v n e _ read built =>
    have follows := Tree.buildRoot_follows n depth
    rw [follows.run_eq, Prod.mk.injEq] at built
    have built' := follows.run_eq ds'
    -- What is refused depends on the node and the allowed levels alone.
    cases refused : (n.rootDemand depth).refused with
    | none =>
      rw [refused] at built
      cases built.1
    | some e' =>
      rw [refused] at built built'
      cases built.1
      exact ⟨_, .building read built'⟩

/-- A reply that converts does so under any descriptors. -/
theorem Converts.under {tree : Tree} (h : reply.Converts depth ds tree after) (hds : ds.Over r)
    (hds' : ds'.Over r) :
    ∃ tree' after', reply.Converts depth ds' tree' after' ∧
      tree.unnumbered = tree'.unnumbered := by
  cases h with
  | @intro v n _ _ read built =>
    obtain ⟨rfl, rfl⟩ := Tree.eq_ofRoot_of_buildRoot built
    have accepted : (n.rootDemand depth).refused = none := by
      have run := (Tree.buildRoot_follows n depth).run_eq ds
      rw [built, Prod.mk.injEq] at run
      cases refused : (n.rootDemand depth).refused with
      | none => rfl
      | some e =>
        rw [refused] at run
        cases run.1
    refine ⟨_, _, .intro read (Tree.run_buildRoot accepted ds'), ?_⟩
    exact Tree.unnumbered_ofRoot
      ((hds.describeAll _).unnumbered_describe (hds'.describeAll _)) n

end Reply

/-- A pass asks for tags, and does nothing else to the descriptors. -/
theorem Adapter.descriptors_attempt (a : Adapter) (ds : Descriptors) (text : String) :
    ∃ tags, (a.attempt ds text).descriptors = ds.describeAll tags := by
  have built : ∀ {n : Node} {result : Except TooDeep Tree} {after : Descriptors},
      (Tree.buildRoot n a.depth).run.run ds = (result, after) →
        after = ds.describeAll (n.rootDemand a.depth).tags := by
    intro n result after h
    rw [(Tree.buildRoot_follows n a.depth).run_eq] at h
    exact (congrArg Prod.snd h).symm
  rcases a.attempt_cases ds text with
    ⟨-, hpass⟩ | ⟨-, message, -, hpass⟩ | ⟨-, e, after, hfails, hpass⟩ |
      ⟨-, tree, after, hconverts, hpass⟩
  · exact ⟨[], by rw [hpass]; rfl⟩
  · exact ⟨[], by rw [hpass]; rfl⟩
  · rw [hpass]
    generalize a.parser.run text = reply at hfails
    cases hfails with
    | parsing => exact ⟨[], rfl⟩
    | reading => exact ⟨[], rfl⟩
    | building _ h => exact ⟨_, built h⟩
  · rw [hpass]
    generalize a.parser.run text = reply at hconverts
    cases hconverts with
    | intro _ h => exact ⟨_, built h⟩

/-! ### Sessions with shared descriptors -/

namespace Session

/-- What can happen around an adapter and its descriptors. -/
inductive Event where
  /-- Something happens to the adapter. -/
  | move (m : Move)
  /-- Somebody else who shares the descriptors makes a request. -/
  | request (q : Request)

/-- A session after an event. -/
def after (s : Session) : Event → Session
  | .move m => s.step m
  | .request q => { s with descriptors := (q.serve s.descriptors).2 }

/-- A session after several events, one after the other. -/
def afterAll (s : Session) (events : List Event) : Session :=
  events.foldl after s

/-- An event leaves the descriptors over their registry. -/
theorem over_after {s : Session} {r : Registry} (h : s.descriptors.Over r) (e : Event) :
    (s.after e).descriptors.Over r := by
  cases e with
  | request q =>
    show (q.serve s.descriptors).2.Over r
    rw [(q.served s.descriptors).descriptors]
    exact h.describeAll _
  | move m =>
    cases m with
    | attempt text =>
      obtain ⟨tags, htags⟩ := s.adapter.descriptors_attempt s.descriptors text
      show (s.adapter.attempt s.descriptors text).descriptors.Over r
      rw [htags]
      exact h.describeAll tags
    | describe tag => exact h.describeAll [tag]
    | resume party =>
      show (s.step (.resume party)).descriptors.Over r
      simp only [step]
      split <;> exact h
    | _ => exact h

/-- So do several events. -/
theorem over_afterAll {s : Session} {r : Registry} (h : s.descriptors.Over r)
    (events : List Event) : (s.afterAll events).descriptors.Over r := by
  induction events generalizing s with
  | nil => exact h
  | cons e events ih => exact ih (over_after h e)

end Session

/-- Results of two passes that differ at most in the numbers of descriptors: two trees, the same
    failure with no tree to show, or the same interrupt. -/
inductive Agree : Except Interrupt Outcome → Except Interrupt Outcome → Prop where
  /-- Both passes made a tree. -/
  | made {s t : Snapshot} (alike : s.tree.unnumbered = t.tree.unnumbered) :
      Agree (.ok ⟨s, none⟩) (.ok ⟨t, none⟩)
  /-- Both passes failed. -/
  | failed (e : Failure) : Agree (.ok ⟨.empty, some e⟩) (.ok ⟨.empty, some e⟩)
  /-- The parser was interrupted both times. -/
  | interrupted (i : Interrupt) : Agree (.error i) (.error i)

/-- Results that agree show the same ranges. -/
theorem Agree.styledRanges {o o' : Outcome} (h : Agree (.ok o) (.ok o')) (offset : Int) :
    o.snapshot.tree.styledRanges offset = o'.snapshot.tree.styledRanges offset := by
  cases h with
  | made alike => rw [← Tree.styledRanges_unnumbered, alike, Tree.styledRanges_unnumbered]
  | failed e => rfl

/-- Two adapters with the same settings that show no last good tree agree on each text, if their
    descriptors are over one registry. -/
theorem Adapter.attempt_agree {a b : Adapter} {r : Registry} {ds ds' : Descriptors}
    (hds : ds.Over r) (hds' : ds'.Over r) (ready : a.ready = true) (ready' : b.ready = true)
    (parser : a.parser = b.parser) (depth : a.depth = b.depth) (keep : a.keepLastGood = false)
    (keep' : b.keepLastGood = false) (text : String) :
    Agree (a.attempt ds text).result (b.attempt ds' text).result ∧
      (a.attempt ds text).log = (b.attempt ds' text).log := by
  have fallback : ∀ {c : Adapter}, c.keepLastGood = false →
      ∀ e, c.failure e = ⟨.empty, some e⟩ := by
    intro c hc e
    rw [failure, Adapter.fallback, hc]
    rfl
  -- Both parsers give one reply, and what comes of it does not depend on the descriptors.
  rw [attempt_of_ready ready' ds' text, ← parser]
  rcases a.attempt_cases ds text with
    ⟨hready, -⟩ | ⟨-, message, hreply, hpass⟩ | ⟨-, e, after, hfails, hpass⟩ |
      ⟨-, tree, after, hconverts, hpass⟩
  · simp [ready] at hready
  · rw [hpass, hreply]
    exact ⟨.interrupted _, rfl⟩
  · obtain ⟨after', hfails'⟩ := hfails.under ds'
    rw [depth] at hfails'
    rw [hpass, receive_of_fails hfails', fallback keep, fallback keep']
    exact ⟨.failed e, rfl⟩
  · obtain ⟨tree', after', hconverts', alike⟩ := hconverts.under hds hds'
    rw [depth] at hconverts'
    rw [hpass, receive_of_converts hconverts']
    refine ⟨.made ?_, rfl⟩
    rw [snapshot_tree, snapshot_tree]
    exact alike

namespace Session

/-- **Independence.** Take two adapters that are new over one registry, whatever happens to each of
    them and to its descriptors.  If both are ready, have the same parser and the same allowance of
    levels, and show no last good tree, then they come to the same result for each text: trees that
    differ in the numbers of descriptors at most, and so have the same ranges, or the same failure
    without a tree. -/
theorem attempt_independent (r : Registry) (p p' : Parser) (depth depth' : Int)
    (keep keep' : Bool) (startup startup' : Startup) (events events' : List Event) (text : String) :
    let s := (new p depth keep startup (.empty r)).afterAll events
    let t := (new p' depth' keep' startup' (.empty r)).afterAll events'
    s.adapter.ready = true → t.adapter.ready = true →
    s.adapter.parser = t.adapter.parser → s.adapter.depth = t.adapter.depth →
    s.adapter.keepLastGood = false → t.adapter.keepLastGood = false →
    let pass := s.adapter.attempt s.descriptors text
    let pass' := t.adapter.attempt t.descriptors text
    Agree pass.result pass'.result ∧ pass.log = pass'.log ∧
      ∀ o o', pass.result = .ok o → pass'.result = .ok o' → ∀ offset,
        o.snapshot.tree.styledRanges offset = o'.snapshot.tree.styledRanges offset := by
  intro s t ready ready' parser depth keep keep' pass pass'
  have hds : s.descriptors.Over r := over_afterAll (Descriptors.over_empty r) events
  have hds' : t.descriptors.Over r := over_afterAll (Descriptors.over_empty r) events'
  obtain ⟨agree, log⟩ :=
    Adapter.attempt_agree hds hds' ready ready' parser depth keep keep' text
  refine ⟨agree, log, fun o o' ho ho' offset => ?_⟩
  have agree : Agree pass.result pass'.result := agree
  rw [ho, ho'] at agree
  exact agree.styledRanges offset

/-- A node whose second child has a child of its own. -/
def branching : Node :=
  .spanned "Line" ⟨0, 9⟩
    [.spanned "Letter" ⟨0, 1⟩ [], .spanned "Word" ⟨2, 9⟩ [.spanned "Letter" ⟨2, 3⟩ []]]

/-- With two levels below the root, the walk breaks off at the letter in the word. -/
theorem asked_branching : (Request.buildRoot branching 3).asked = ["_root", "Letter"] := by
  have ofLine : Node.inOrder ([.spanned "Letter" ⟨0, 1⟩ [],
        .spanned "Word" ⟨2, 9⟩ [.spanned "Letter" ⟨2, 3⟩ []]].filter Node.isSpanned) =
      [.spanned "Letter" ⟨0, 1⟩ [], .spanned "Word" ⟨2, 9⟩ [.spanned "Letter" ⟨2, 3⟩ []]] :=
    sortBy_of_ascending Node.place (by decide)
  have ofWord : Node.inOrder ([.spanned "Letter" ⟨2, 3⟩ []].filter Node.isSpanned) =
      [.spanned "Letter" ⟨2, 3⟩ []] :=
    sortBy_of_ascending Node.place (by decide)
  show Tree.rootTag :: (branching.leftWithin 2).map Visit.tag = _
  rw [Node.leftWithin, Node.turns, branching, Node.turnsBelow_spanned, ofLine]
  simp only [List.flatMap_cons, List.flatMap_nil, Node.turnsBelow_spanned, ofWord,
    List.filter_nil, Node.inOrder_nil]
  rfl

/-- A pass that succeeds and one that fails. -/
def eventsOfOne : List Event :=
  [.move (.attempt "a"), .move (.attempt "(")]

/-- A failure while the last good tree is to be shown, a request by somebody else, and a tree that
    is broken off at the child of the word. -/
def eventsOfOther : List Event :=
  [.move (.keepLastGood true), .move (.attempt "("), .move (.keepLastGood false),
    .request (.describe "Page"), .request (.buildRoot branching 3)]

/-- After different events a word has different descriptors, and the passes agree all the same. -/
theorem attempt_independent_touchy :
    let s := (new touchyParser 3 false .unneeded (.empty .lyql)).afterAll eventsOfOne
    let t := (new touchyParser 3 true .unneeded (.empty .lyql)).afterAll eventsOfOther
    (s.adapter.ready = true ∧ t.adapter.ready = true ∧ s.adapter.parser = t.adapter.parser ∧
      s.adapter.depth = t.adapter.depth ∧ s.adapter.keepLastGood = false ∧
      t.adapter.keepLastGood = false) ∧
    s.descriptors.known.map Descriptor.name = ["_root", "Word"] ∧
    t.descriptors.known.map Descriptor.name = ["Page", "_root", "Letter"] ∧
    Agree (s.adapter.attempt s.descriptors "b").result
      (t.adapter.attempt t.descriptors "b").result := by
  intro s t
  have ready : s.adapter.ready = true := by decide +kernel
  have ready' : t.adapter.ready = true := by decide +kernel
  have parser : s.adapter.parser = t.adapter.parser := by
    have one : s.adapter.parser = touchyParser :=
      (Adapter.settings_attempt _ _ _).1.trans (Adapter.settings_attempt _ _ _).1
    have other : t.adapter.parser = touchyParser := rfl
    rw [one, other]
  have depth : s.adapter.depth = t.adapter.depth := by decide +kernel
  have keep : s.adapter.keepLastGood = false := by decide +kernel
  have keep' : t.adapter.keepLastGood = false := by decide +kernel
  have known : t.descriptors.known.map Descriptor.name = ["Page", "_root", "Letter"] := by
    show ((Request.buildRoot branching 3).serve
      ((Descriptors.empty .lyql).describe "Page").2).2.known.map _ = _
    rw [(Request.served _ _).descriptors, asked_branching]
    decide +kernel
  refine ⟨⟨ready, ready', parser, depth, keep, keep'⟩, by decide +kernel, known, ?_⟩
  exact (attempt_independent .lyql touchyParser touchyParser 3 3 false true .unneeded .unneeded
    eventsOfOne eventsOfOther "b" ready ready' parser depth keep keep').1

end Session

end LyqlHighlight
