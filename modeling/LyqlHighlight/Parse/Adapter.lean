import LyqlHighlight.Parse.Startup

namespace LyqlHighlight

/-!
# The parse adapter

An adapter runs a parser over a whole text and turns what it returns into a tree.  Whatever goes
wrong on the way is contained: the outcome then holds the failure and a tree to show all the same.

* `Snapshot` — a published tree with its revision;
* `LogRecord` — a line of the log;
* `Outcome` — the result of a pass;
* `Adapter` — a parser with what is kept between passes;
* `Adapter.receive`, `Adapter.attempt` — what comes of a reply, and a pass over a text;
* `Adapter.startUp`, `Adapter.attemptAtStartup` — passes and the start-up.
-/

/-- A published tree.  Trees published at different times have different revisions, except that
    the empty tree always has revision zero. -/
structure Snapshot where
  /-- The revision. -/
  revision : Nat
  /-- The tree. -/
  tree : Tree

/-- The empty tree. -/
def Snapshot.empty : Snapshot := ⟨0, .empty⟩

/-- How grave a line of the log is. -/
inductive LogLevel where
  /-- For tracing only. -/
  | debug
  /-- Something went wrong. -/
  | warning
deriving DecidableEq, Repr

/-- The name of a level. -/
def LogLevel.name : LogLevel → String
  | debug => "DEBUG"
  | warning => "WARNING"

/-- A line of the log. -/
structure LogRecord where
  /-- How grave it is. -/
  level : LogLevel
  /-- The message. -/
  message : String
  /-- Whether the trace of a failure goes with it. -/
  traced : Bool
deriving DecidableEq, Repr

namespace LogRecord

/-- The line for a pass that came before the end of the start-up. -/
def dropped : LogRecord := ⟨.debug, "Parser not initialized, dropping reparse", false⟩

/-- The line for a pass that failed. -/
def failed (e : Failure) : LogRecord :=
  ⟨.warning, "Failed to parse document: " ++ e.message, true⟩

end LogRecord

/-- The result of a pass.  It holds a tree to show in any case. -/
structure Outcome where
  /-- The tree to show. -/
  snapshot : Snapshot
  /-- Why the pass failed, if it did. -/
  error : Option Failure

/-- Whether the pass succeeded. -/
def Outcome.ok (o : Outcome) : Bool :=
  o.error.isNone

/-- The parser was interrupted. -/
structure Interrupt where
  /-- The message that came with it. -/
  message : String
deriving DecidableEq, Repr

/-- A parser with what is kept between passes. -/
structure Adapter where
  /-- The parser. -/
  parser : Parser
  /-- The number of levels that a tree may nest. -/
  depth : Int := Node.defaultDepth
  /-- Whether a failed pass shows the last tree that came about without a failure. -/
  keepLastGood : Bool := false
  /-- The start-up of the parser. -/
  startup : Startup := .unneeded
  /-- The last tree that came about without a failure. -/
  lastGood : Snapshot := .empty
  /-- The last revision given to a tree. -/
  revision : Nat := 0

/-- All that a pass changes or reports. -/
structure Pass where
  /-- The adapter afterwards. -/
  adapter : Adapter
  /-- The descriptors handed out until then. -/
  descriptors : Descriptors
  /-- The lines it adds to the log. -/
  log : List LogRecord
  /-- Its result, unless the parser was interrupted. -/
  result : Except Interrupt Outcome

/-- The tree of a value that a parser returned, with the descriptors handed out for it. -/
def Tree.ofValue (v : Value) (depth : Int) (ds : Descriptors) :
    Except Failure Tree × Descriptors :=
  match Node.ofValue v depth with
  | .error e => (.error (.read e), ds)
  | .ok n =>
    let (result, ds) := (Tree.buildRoot n depth).run.run ds
    (result.mapError .build, ds)

namespace Adapter

/-- Whether the parser may be used. -/
def ready (a : Adapter) : Bool :=
  a.startup.ready

/-- The tree to show when a pass fails. -/
def fallback (a : Adapter) : Snapshot :=
  if a.keepLastGood then a.lastGood else .empty

/-- The outcome of a pass that failed. -/
def failure (a : Adapter) (e : Failure) : Outcome :=
  ⟨a.fallback, some e⟩

/-- The next snapshot, for a tree that came about without a failure. -/
def snapshot (a : Adapter) (tree : Tree) : Snapshot :=
  if tree.isEmpty then .empty else ⟨a.revision + 1, tree⟩

/-- The adapter after a tree came about without a failure. -/
def published (a : Adapter) (s : Snapshot) : Adapter :=
  { a with lastGood := s, revision := max a.revision s.revision }

/-- The pass that comes of a reply of the parser. -/
def receive (a : Adapter) (ds : Descriptors) : Reply → Pass
  | .interrupted message => ⟨a, ds, [], .error ⟨message⟩⟩
  | .failed e => ⟨a, ds, [.failed e], .ok (a.failure e)⟩
  | .value v =>
    match Tree.ofValue v a.depth ds with
    | (.error e, ds) => ⟨a, ds, [.failed e], .ok (a.failure e)⟩
    | (.ok tree, ds) =>
      let s := a.snapshot tree
      ⟨a.published s, ds, [], .ok ⟨s, none⟩⟩

/-- The pass that comes before the end of the start-up. -/
def dropped (a : Adapter) (ds : Descriptors) : Pass :=
  ⟨a, ds, [.dropped], .ok (a.failure .notReady)⟩

/-- A pass over a text that learns the reply of the parser by an action, which may have effects of
    its own. -/
def attemptBy {m : Type → Type} [Monad m] (ask : String → m Reply) (a : Adapter)
    (ds : Descriptors) (text : String) : m Pass :=
  if a.ready then a.receive ds <$> ask text else pure (a.dropped ds)

/-- A pass over a text. -/
def attempt (a : Adapter) (ds : Descriptors) (text : String) : Pass :=
  a.attemptBy (m := Id) a.parser.run ds text

/-- The answers to `count` requests for the start-up made at once, where a run that begins with them
    ends with `result`. -/
def startUp (a : Adapter) (count : Nat) (result : Except Failure Unit) :
    List Waiter × Adapter :=
  let (waiters, startup) := a.startup.requestAll count result
  (waiters, { a with startup })

/-- A request for the start-up, and a pass that comes between it and the end of the run. -/
def attemptAtStartup (a : Adapter) (ds : Descriptors) (text : String)
    (result : Except Failure Unit) : Waiter × Pass :=
  let (waiter, startup) := a.startup.request
  let pass := { a with startup }.attempt ds text
  let (waiter, startup) := (pass.adapter.startup.finish result).settle waiter
  (waiter, { pass with adapter := { pass.adapter with startup } })

end Adapter

end LyqlHighlight
