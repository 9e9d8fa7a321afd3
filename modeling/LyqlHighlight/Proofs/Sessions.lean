import LyqlHighlight.Parse.Adapter
import LyqlHighlight.Proofs.Startup

namespace LyqlHighlight

/-!
# Adapters in use

While an adapter is in use it is asked for passes, its settings change, its parser is started up,
and others ask for descriptors that it shares.  Whatever happens in which order, a pass is
contained: a failure ends up in its outcome, along with the last tree that came about without one.

* `Reply.Converts`, `Reply.Fails` — the replies that stand for a tree, and those that do not;
* `Adapter.attempt_cases` — all that a pass can do;
* `Session`, `Session.Move`, `Session.run` — an adapter in use, and what can happen to it;
* `lastMade`, `Session.lastGood_run` — the tree of the most recent pass that succeeded, which is the
  one that the adapter keeps;
* `Session.attempt_contained` — passes are contained.
-/

/-! ### Replies -/

/-- The reply is a value that stands for a tree: it can be read as a node, and a tree can be built
    of the node.  The descriptors afterwards are those handed out for the tree. -/
inductive Reply.Converts (depth : Int) (ds : Descriptors) : Reply → Tree → Descriptors → Prop where
  | intro {v : Value} {n : Node} {tree : Tree} {after : Descriptors}
      (read : Node.ofValue v depth = .ok n)
      (built : (Tree.buildRoot n depth).run.run ds = (.ok tree, after)) :
      Converts depth ds (.value v) tree after

/-- The reply leads to a failure: that of the parser, that of reading its value, or that of building
    a tree. -/
inductive Reply.Fails (depth : Int) (ds : Descriptors) : Reply → Failure → Descriptors → Prop where
  | parsing (e : Failure) : Fails depth ds (.failed e) e ds
  | reading {v : Value} {e : ReadError} (read : Node.ofValue v depth = .error e) :
      Fails depth ds (.value v) (.read e) ds
  | building {v : Value} {n : Node} {e : TooDeep} {after : Descriptors}
      (read : Node.ofValue v depth = .ok n)
      (built : (Tree.buildRoot n depth).run.run ds = (.error e, after)) :
      Fails depth ds (.value v) (.build e) after

namespace Reply

variable {depth : Int} {ds : Descriptors}

/-- A reply is an interrupt, fails, or converts. -/
theorem exhaust (depth : Int) (ds : Descriptors) (reply : Reply) :
    (∃ message, reply = .interrupted message) ∨ (∃ e after, reply.Fails depth ds e after) ∨
      ∃ tree after, reply.Converts depth ds tree after := by
  cases reply with
  | interrupted message => exact .inl ⟨message, rfl⟩
  | failed e => exact .inr (.inl ⟨e, ds, .parsing e⟩)
  | value v =>
    right
    rcases read : Node.ofValue v depth with e | n
    · exact .inl ⟨.read e, ds, .reading read⟩
    · rcases built : (Tree.buildRoot n depth).run.run ds with ⟨e | tree, after⟩
      · exact .inl ⟨.build e, after, .building read built⟩
      · exact .inr ⟨tree, after, .intro read built⟩

/-- A reply that converts does not fail. -/
theorem Converts.not_fails {reply : Reply} {tree : Tree} {e : Failure} {after after' : Descriptors}
    (h : reply.Converts depth ds tree after) : ¬reply.Fails depth ds e after' := by
  intro hfails
  cases h with
  | intro read built =>
    cases hfails with
    | reading read' => simp [read'] at read
    | building read' built' =>
      simp only [read, Except.ok.injEq] at read'
      subst read'
      cases built.symm.trans built'

/-- A reply converts to one tree only. -/
theorem Converts.unique {reply : Reply} {tree tree' : Tree} {after after' : Descriptors}
    (h : reply.Converts depth ds tree after) (h' : reply.Converts depth ds tree' after') :
    tree = tree' ∧ after = after' := by
  cases h with
  | intro read built =>
    cases h' with
    | intro read' built' =>
      simp only [read, Except.ok.injEq] at read'
      subst read'
      cases built.symm.trans built'
      exact ⟨rfl, rfl⟩

end Reply

/-! ### Passes -/

namespace Adapter

variable {a : Adapter} {ds : Descriptors} {text : String}

@[simp] theorem snapshot_tree (a : Adapter) (tree : Tree) : (a.snapshot tree).tree = tree := by
  cases tree <;> simp [snapshot, Tree.isEmpty, Snapshot.empty]

/-- Before the parser is ready, a pass does not ask it for a reply, whatever asking would do. -/
theorem attemptBy_of_not_ready {m : Type → Type} [Monad m] (ask : String → m Reply)
    (h : a.ready = false) (ds : Descriptors) (text : String) :
    a.attemptBy ask ds text = pure (a.dropped ds) := by
  simp [attemptBy, h]

theorem attempt_of_not_ready (h : a.ready = false) (ds : Descriptors) (text : String) :
    a.attempt ds text = a.dropped ds :=
  attemptBy_of_not_ready (m := Id) a.parser.run h ds text

theorem attempt_of_ready (h : a.ready = true) (ds : Descriptors) (text : String) :
    a.attempt ds text = a.receive ds (a.parser.run text) := by
  unfold attempt attemptBy
  rw [if_pos h]
  rfl

theorem receive_of_fails {reply : Reply} {e : Failure} {after : Descriptors}
    (h : reply.Fails a.depth ds e after) :
    a.receive ds reply = ⟨a, after, [.failed e], .ok (a.failure e)⟩ := by
  cases h with
  | parsing => rfl
  | reading read => simp [receive, Tree.ofValue, read]
  | building read built =>
    simp only [receive, Tree.ofValue, read, built]
    rfl

theorem receive_of_converts {reply : Reply} {tree : Tree} {after : Descriptors}
    (h : reply.Converts a.depth ds tree after) :
    a.receive ds reply =
      ⟨a.published (a.snapshot tree), after, [], .ok ⟨a.snapshot tree, none⟩⟩ := by
  cases h with
  | intro read built =>
    simp only [receive, Tree.ofValue, read, built]
    rfl

/-- **All that a pass can do.** It is dropped before the parser is ready.  Otherwise the parser is
    interrupted, or its reply fails and leaves the adapter as it was, or its reply converts and the
    tree is published. -/
theorem attempt_cases (a : Adapter) (ds : Descriptors) (text : String) :
    (a.ready = false ∧ a.attempt ds text = a.dropped ds) ∨
    (a.ready = true ∧ ∃ message, a.parser.run text = .interrupted message ∧
      a.attempt ds text = ⟨a, ds, [], .error ⟨message⟩⟩) ∨
    (a.ready = true ∧ ∃ e after, (a.parser.run text).Fails a.depth ds e after ∧
      a.attempt ds text = ⟨a, after, [.failed e], .ok (a.failure e)⟩) ∨
    (a.ready = true ∧ ∃ tree after, (a.parser.run text).Converts a.depth ds tree after ∧
      a.attempt ds text =
        ⟨a.published (a.snapshot tree), after, [], .ok ⟨a.snapshot tree, none⟩⟩) := by
  rcases hready : a.ready with _ | _
  · exact .inl ⟨rfl, attempt_of_not_ready hready ds text⟩
  · right
    rw [attempt_of_ready hready]
    rcases (a.parser.run text).exhaust a.depth ds with
      ⟨message, hreply⟩ | ⟨e, after, hfails⟩ | ⟨tree, after, hconverts⟩
    · exact .inl ⟨rfl, message, hreply, by rw [hreply]; rfl⟩
    · exact .inr (.inl ⟨rfl, e, after, hfails, receive_of_fails hfails⟩)
    · exact .inr (.inr ⟨rfl, tree, after, hconverts, receive_of_converts hconverts⟩)

/-- A pass succeeds only if the reply of the parser converts, and then shows the tree. -/
theorem converts_of_ok {outcome : Outcome} (returned : (a.attempt ds text).result = .ok outcome)
    (ok : outcome.ok = true) :
    ∃ tree after, (a.parser.run text).Converts a.depth ds tree after ∧
      outcome = ⟨a.snapshot tree, none⟩ := by
  have failed : ∀ e, outcome ≠ a.failure e := by
    rintro e rfl
    cases ok
  rcases a.attempt_cases ds text with
    ⟨-, hpass⟩ | ⟨-, message, -, hpass⟩ | ⟨-, e, after, -, hpass⟩ |
      ⟨-, tree, after, hconverts, hpass⟩
  · rw [hpass] at returned
    exact absurd (Except.ok.inj returned).symm (failed .notReady)
  · rw [hpass] at returned
    cases returned
  · rw [hpass] at returned
    exact absurd (Except.ok.inj returned).symm (failed e)
  · rw [hpass] at returned
    exact ⟨tree, after, hconverts, (Except.ok.inj returned).symm⟩

/-- A pass does not touch the start-up. -/
theorem startup_attempt (a : Adapter) (ds : Descriptors) (text : String) :
    (a.attempt ds text).adapter.startup = a.startup := by
  rcases a.attempt_cases ds text with
    ⟨-, h⟩ | ⟨-, _, -, h⟩ | ⟨-, _, _, -, h⟩ | ⟨-, _, _, -, h⟩ <;> rw [h] <;> rfl

/-- A pass does not touch the settings. -/
theorem settings_attempt (a : Adapter) (ds : Descriptors) (text : String) :
    (a.attempt ds text).adapter.parser = a.parser ∧
      (a.attempt ds text).adapter.depth = a.depth ∧
      (a.attempt ds text).adapter.keepLastGood = a.keepLastGood := by
  rcases a.attempt_cases ds text with
    ⟨-, h⟩ | ⟨-, _, -, h⟩ | ⟨-, _, _, -, h⟩ | ⟨-, _, _, -, h⟩ <;> rw [h] <;> exact ⟨rfl, rfl, rfl⟩

end Adapter

/-! ### Sessions -/

/-- An adapter in use, with what has come of its use so far. -/
structure Session where
  /-- The adapter. -/
  adapter : Adapter
  /-- The descriptors, which others may share. -/
  descriptors : Descriptors
  /-- Those who have asked for the start-up, in the order of their requests. -/
  parties : List Waiter
  /-- The passes, in their order. -/
  passes : List Pass

namespace Session

/-- What can happen to an adapter in use. -/
inductive Move where
  /-- Somebody asks for the start-up. -/
  | request
  /-- The run of the start-up ends. -/
  | finish (result : Except Failure Unit)
  /-- Somebody who has asked for the start-up goes on, if the run has ended. -/
  | resume (party : Nat)
  /-- A pass over a text, of which either the whole outcome or only its tree is used. -/
  | attempt (text : String)
  /-- Failed passes show, or no longer show, the last tree that came about without a failure. -/
  | keepLastGood (keep : Bool)
  /-- Another allowance of levels. -/
  | depth (depth : Int)
  /-- Another parser.  A parser whose reply to a text changes is one that is replaced. -/
  | parser (parser : Parser)
  /-- Somebody else who shares the descriptors asks for one. -/
  | describe (tag : String)

/-- A new adapter. -/
def new (parser : Parser) (depth : Int) (keepLastGood : Bool) (startup : Startup)
    (ds : Descriptors) : Session :=
  ⟨{ parser, depth, keepLastGood, startup }, ds, [], []⟩

/-- One move. -/
def step (s : Session) : Move → Session
  | .request =>
    let (waiter, startup) := s.adapter.startup.request
    { s with adapter.startup := startup, parties := s.parties ++ [waiter] }
  | .finish result => { s with adapter.startup := s.adapter.startup.finish result }
  | .resume party =>
    match s.parties[party]? with
    | some waiter =>
      let (waiter, startup) := s.adapter.startup.settle waiter
      { s with adapter.startup := startup, parties := s.parties.set party waiter }
    | none => s
  | .attempt text =>
    let pass := s.adapter.attempt s.descriptors text
    { s with
      adapter := pass.adapter, descriptors := pass.descriptors, passes := s.passes ++ [pass] }
  | .keepLastGood keep => { s with adapter.keepLastGood := keep }
  | .depth depth => { s with adapter.depth := depth }
  | .parser parser => { s with adapter.parser := parser }
  | .describe tag => { s with descriptors := (s.descriptors.describe tag).2 }

/-- Several moves, one after the other. -/
def run (s : Session) (moves : List Move) : Session :=
  moves.foldl step s

@[simp] theorem run_cons (s : Session) (m : Move) (moves : List Move) :
    s.run (m :: moves) = (s.step m).run moves := rfl

theorem run_append (s : Session) (moves more : List Move) :
    s.run (moves ++ more) = (s.run moves).run more :=
  List.foldl_append

/-! ### The start-up in a session -/

theorem onward_step (s : Session) (m : Move) :
    s.adapter.startup.Onward (s.step m).adapter.startup := by
  cases m with
  | request => exact s.adapter.startup.onward_request
  | finish result => exact s.adapter.startup.onward_finish result
  | resume party =>
    simp only [step]
    split
    · next waiter _ => exact s.adapter.startup.onward_settle waiter
    · exact .refl _
  | attempt text =>
    show s.adapter.startup.Onward (s.adapter.attempt s.descriptors text).adapter.startup
    rw [Adapter.startup_attempt]
    exact .refl _
  | keepLastGood keep => exact .refl _
  | depth depth => exact .refl _
  | parser parser => exact .refl _
  | describe tag => exact .refl _

theorem onward_run (s : Session) (moves : List Move) :
    s.adapter.startup.Onward (s.run moves).adapter.startup := by
  induction moves generalizing s with
  | nil => exact .refl _
  | cons m moves ih => exact (s.onward_step m).trans (ih (s.step m))

/-- A parser that is ready stays ready. -/
theorem ready_run {s : Session} (h : s.adapter.ready = true) (moves : List Move) :
    (s.run moves).adapter.ready = true :=
  (s.onward_run moves).ready h

end Session

/-! ### The last good tree -/

/-- The tree that a pass made, if it succeeded. -/
def Pass.made? (p : Pass) : Option Snapshot :=
  match p.result with
  | .ok outcome => if outcome.ok then some outcome.snapshot else none
  | .error _ => none

/-- The tree of the most recent pass that succeeded, or the empty tree. -/
def lastMade (passes : List Pass) : Snapshot :=
  (passes.filterMap Pass.made?).getLast?.getD .empty

theorem lastMade_append_of_none {p : Pass} (h : p.made? = none) (passes : List Pass) :
    lastMade (passes ++ [p]) = lastMade passes := by
  simp [lastMade, h]

theorem lastMade_append_of_some {p : Pass} {t : Snapshot} (h : p.made? = some t)
    (passes : List Pass) : lastMade (passes ++ [p]) = t := by
  simp [lastMade, h]

namespace Session

/-- A move keeps the last good tree that of the most recent pass that succeeded. -/
theorem lastGood_step {s : Session} (h : s.adapter.lastGood = lastMade s.passes) (m : Move) :
    (s.step m).adapter.lastGood = lastMade (s.step m).passes := by
  cases m with
  | request => exact h
  | finish result => exact h
  | resume party =>
    simp only [step]
    split <;> exact h
  | attempt text =>
    simp only [step]
    -- Only a reply that converts makes a tree, and then the adapter keeps that one.
    rcases s.adapter.attempt_cases s.descriptors text with
      ⟨-, hpass⟩ | ⟨-, message, -, hpass⟩ | ⟨-, e, after, -, hpass⟩ | ⟨-, tree, after, -, hpass⟩
    · rw [hpass, lastMade_append_of_none (by simp [Pass.made?, Adapter.dropped, Adapter.failure,
        Outcome.ok])]
      exact h
    · rw [hpass, lastMade_append_of_none (by simp [Pass.made?])]
      exact h
    · rw [hpass, lastMade_append_of_none (by simp [Pass.made?, Adapter.failure, Outcome.ok])]
      exact h
    · rw [hpass, lastMade_append_of_some (t := s.adapter.snapshot tree)
        (by simp [Pass.made?, Outcome.ok])]
      rfl
  | keepLastGood keep => exact h
  | depth depth => exact h
  | parser parser => exact h
  | describe tag => exact h

/-- **The last good tree.** Throughout a session the adapter keeps the tree of the most recent pass
    that succeeded. -/
theorem lastGood_run {s : Session} (h : s.adapter.lastGood = lastMade s.passes)
    (moves : List Move) : (s.run moves).adapter.lastGood = lastMade (s.run moves).passes := by
  induction moves generalizing s with
  | nil => exact h
  | cons m moves ih => exact ih (lastGood_step h m)

/-! ### Containment -/

/-- What a pass over a text does in a session, by the reply of the parser. -/
structure Contained (s : Session) (text : String) (pass : Pass) : Prop where
  /-- An interrupt escapes, and all stays as it was. -/
  interrupted : ∀ message, s.adapter.parser.run text = .interrupted message →
    pass = ⟨s.adapter, s.descriptors, [], .error ⟨message⟩⟩
  /-- Nothing but an interrupt escapes. -/
  returns : (∀ message, s.adapter.parser.run text ≠ .interrupted message) →
    ∃ outcome, pass.result = .ok outcome
  /-- The pass succeeds exactly if the reply stands for a tree. -/
  ok_iff : ∀ outcome, pass.result = .ok outcome →
    (outcome.ok = true ↔ ∃ tree after,
      (s.adapter.parser.run text).Converts s.adapter.depth s.descriptors tree after)
  /-- A pass that succeeds shows the tree that the reply stands for, keeps it as the last good one,
      even if it is the empty tree, and logs nothing. -/
  converted : ∀ outcome tree after, pass.result = .ok outcome →
    (s.adapter.parser.run text).Converts s.adapter.depth s.descriptors tree after →
    outcome.snapshot.tree = tree ∧ (tree = .empty → outcome.snapshot = .empty) ∧
      pass.adapter.lastGood = outcome.snapshot ∧ pass.descriptors = after ∧ pass.log = []
  /-- A pass that does not succeed holds the failure.  It shows the tree of the most recent pass
      that succeeded, if that is wanted, logs one warning, and leaves the adapter as it was. -/
  failed : ∀ outcome, pass.result = .ok outcome → outcome.ok = false →
    ∃ e after, (s.adapter.parser.run text).Fails s.adapter.depth s.descriptors e after ∧
      outcome = ⟨if s.adapter.keepLastGood then lastMade s.passes else .empty, some e⟩ ∧
      pass.adapter = s.adapter ∧ pass.descriptors = after ∧
      pass.log = [.failed e] ∧ pass.log.map LogRecord.level = [.warning]

variable {s : Session} {text : String}

theorem contained_of_interrupted {message : String}
    (hreply : s.adapter.parser.run text = .interrupted message) :
    s.Contained text ⟨s.adapter, s.descriptors, [], .error ⟨message⟩⟩ := by
  refine ⟨fun m hm => ?_, fun hno => absurd hreply (hno message), ?_, ?_, ?_⟩
  · rw [hreply] at hm
    cases hm
    rfl
  · intro outcome hresult
    cases hresult
  · intro outcome _ _ hresult
    cases hresult
  · intro outcome hresult
    cases hresult

theorem contained_of_fails (kept : s.adapter.lastGood = lastMade s.passes) {e : Failure}
    {after : Descriptors}
    (hfails : (s.adapter.parser.run text).Fails s.adapter.depth s.descriptors e after) :
    s.Contained text ⟨s.adapter, after, [.failed e], .ok (s.adapter.failure e)⟩ := by
  refine ⟨fun m hm => ?_, fun _ => ⟨_, rfl⟩, ?_, ?_, ?_⟩
  · rw [hm] at hfails
    cases hfails
  · intro outcome hresult
    cases hresult
    have not_converts : ¬∃ tree after,
        (s.adapter.parser.run text).Converts s.adapter.depth s.descriptors tree after :=
      fun ⟨_, _, hc⟩ => hc.not_fails hfails
    simp [not_converts, Adapter.failure, Outcome.ok]
  · intro outcome _ _ _ hc
    exact absurd hfails hc.not_fails
  · intro outcome hresult _
    cases hresult
    refine ⟨e, after, hfails, ?_, rfl, rfl, rfl, rfl⟩
    rw [Adapter.failure, Adapter.fallback, kept]

theorem contained_of_converts {tree : Tree} {after : Descriptors}
    (hconverts : (s.adapter.parser.run text).Converts s.adapter.depth s.descriptors tree after) :
    s.Contained text ⟨s.adapter.published (s.adapter.snapshot tree), after, [],
      .ok ⟨s.adapter.snapshot tree, none⟩⟩ := by
  refine ⟨fun m hm => ?_, fun _ => ⟨_, rfl⟩, ?_, ?_, ?_⟩
  · rw [hm] at hconverts
    cases hconverts
  · intro outcome hresult
    cases hresult
    exact ⟨fun _ => ⟨tree, after, hconverts⟩, fun _ => rfl⟩
  · intro outcome other later hresult hc
    cases hresult
    obtain ⟨rfl, rfl⟩ := hconverts.unique hc
    exact ⟨Adapter.snapshot_tree _ _, fun hempty => by rw [hempty]; rfl, rfl, rfl, rfl⟩
  · intro outcome hresult hfailed
    cases hresult
    simp [Outcome.ok] at hfailed

/-- **Containment.** Once the parser of an adapter is ready, each pass is contained, after whatever
    passes, failures and changes of the settings. -/
theorem attempt_contained (parser : Parser) (depth : Int) (keep : Bool) (startup : Startup)
    (ds : Descriptors) (before moves : List Move) (text : String)
    (ready : ((new parser depth keep startup ds).run before).adapter.ready = true) :
    let s := (new parser depth keep startup ds).run (before ++ moves)
    s.Contained text (s.adapter.attempt s.descriptors text) := by
  intro s
  have still : s.adapter.ready = true := by
    show ((new parser depth keep startup ds).run (before ++ moves)).adapter.ready = true
    rw [run_append]
    exact ready_run ready moves
  have kept : s.adapter.lastGood = lastMade s.passes := lastGood_run rfl (before ++ moves)
  rcases s.adapter.attempt_cases s.descriptors text with
    ⟨hready, -⟩ | ⟨-, message, hreply, hpass⟩ | ⟨-, e, after, hfails, hpass⟩ |
      ⟨-, tree, after, hconverts, hpass⟩
  · simp [still] at hready
  · rw [hpass]
    exact contained_of_interrupted hreply
  · rw [hpass]
    exact contained_of_fails kept hfails
  · rw [hpass]
    exact contained_of_converts hconverts

/-- A parser that has one word for each text but an opening parenthesis. -/
def touchyParser : Parser where
  name := "touchy"
  run text :=
    if text = "(" then .failed (.raised "ParserFailure" "unbalanced")
    else .value (.node (.spanned "Word" ⟨0, 1⟩ []))

/-- A parser that fails on each text. -/
def brokenParser : Parser where
  name := "broken"
  run _ := .failed (.raised "ParserFailure" "out of order")

/-- A start-up, with a pass that comes too early. -/
def warmUp : List Move :=
  [.attempt "a", .request, .finish (.ok ()), .resume 0]

/-- A pass that succeeds, one that fails, and changes of the settings. -/
def flickering : List Move :=
  [.attempt "a", .attempt "(", .parser brokenParser, .keepLastGood true]

/-- A failure of the new parser shows the tree of the only pass that succeeded. -/
theorem attempt_contained_touchy :
    ((new touchyParser 2 false .required (.empty .lyql)).run warmUp).adapter.ready = true ∧
    let s := (new touchyParser 2 false .required (.empty .lyql)).run (warmUp ++ flickering)
    s.passes.map (fun p => p.made?.isSome) = [false, true, false] ∧
      (lastMade s.passes).revision = 1 ∧
      (s.adapter.attempt s.descriptors "b").result =
        .ok ⟨lastMade s.passes, some (.raised "ParserFailure" "out of order")⟩ := by
  refine ⟨rfl, ?_⟩
  intro s
  refine ⟨by decide +kernel, by decide +kernel, ?_⟩
  have contained : s.Contained "b" (s.adapter.attempt s.descriptors "b") :=
    attempt_contained touchyParser 2 false .required (.empty .lyql) warmUp flickering "b" rfl
  have reply : s.adapter.parser.run "b" = .failed (.raised "ParserFailure" "out of order") := rfl
  have keep : s.adapter.keepLastGood = true := rfl
  obtain ⟨outcome, hresult⟩ := contained.returns (by simp [reply])
  have hfailed : outcome.ok = false := by
    rw [Bool.eq_false_iff, Ne, contained.ok_iff outcome hresult, reply]
    rintro ⟨tree, after, ⟨⟩⟩
  obtain ⟨e, after, hfails, rfl, -⟩ := contained.failed outcome hresult hfailed
  rw [reply] at hfails
  cases hfails
  rw [hresult, keep, if_pos rfl]

end Session

end LyqlHighlight
