import LyqlHighlight.Parse.Parser

namespace LyqlHighlight

/-!
# Starting up a parser

A parser may have to be started up before its first use.  The start-up runs once; everybody who asks
for it waits for the same run and learns its result.

* `StartupRun`, `Startup` — how far the start-up is, and whether the parser is ready;
* `Startup.request`, `Startup.finish`, `Startup.resume` — the moves: somebody asks for the start-up,
  the run ends, somebody who waited goes on;
* `Startup.requestAll` — several requests at once.
-/

/-- How far the run of a start-up is. -/
inductive StartupRun where
  /-- The run has not begun. -/
  | pending
  /-- The run has begun and not ended. -/
  | running
  /-- The run has ended well. -/
  | completed
  /-- The run has failed. -/
  | failed (e : Failure)
deriving Repr

/-- The start-up of a parser. -/
structure Startup where
  /-- Whether the parser has to be started up at all. -/
  needed : Bool
  /-- How far the run is. -/
  run : StartupRun
  /-- Whether the parser may be used. -/
  ready : Bool
  /-- How often a run has begun. -/
  begun : Nat
deriving Repr

/-- Where somebody stands who asked for the start-up. -/
inductive Waiter where
  /-- The request has been answered. -/
  | answered (result : Except Failure Unit)
  /-- The request waits for the end of the run. -/
  | waiting

namespace Startup

/-- The start-up of a parser that needs none. -/
def unneeded : Startup := ⟨false, .pending, true, 0⟩

/-- The start-up of a parser that needs one. -/
def required : Startup := ⟨true, .pending, false, 0⟩

/-- Somebody asks for the start-up.  The first request begins the run. -/
def request (s : Startup) : Waiter × Startup :=
  if s.ready || !s.needed then (.answered (.ok ()), { s with ready := true })
  else match s.run with
    | .pending => (.waiting, { s with run := .running, begun := s.begun + 1 })
    | .running => (.waiting, s)
    | .completed => (.answered (.ok ()), { s with ready := true })
    | .failed e => (.answered (.error e), s)

/-- The run ends with a result. -/
def finish (s : Startup) (result : Except Failure Unit) : Startup :=
  match s.run, result with
  | .running, .ok () => { s with run := .completed }
  | .running, .error e => { s with run := .failed e }
  | _, _ => s

/-- Somebody who has waited for the end of the run goes on; with the first of them the parser is
    ready. -/
def resume (s : Startup) : Waiter × Startup :=
  match s.run with
  | .completed => (.answered (.ok ()), { s with ready := true })
  | .failed e => (.answered (.error e), s)
  | _ => (.waiting, s)

/-- Somebody goes on as far as possible. -/
def settle (s : Startup) : Waiter → Waiter × Startup
  | .waiting => s.resume
  | .answered result => (.answered result, s)

/-- Carries out a move for each of several parties, one after the other. -/
def forEach {α : Type} (move : Startup → α → Waiter × Startup) (s : Startup) :
    List α → List Waiter × Startup
  | [] => ([], s)
  | a :: others =>
    let (waiter, s) := move s a
    let (waiters, s) := forEach move s others
    (waiter :: waiters, s)

/-- The answers to `count` requests made at once, where a run that begins with them ends with
    `result`. -/
def requestAll (s : Startup) (count : Nat) (result : Except Failure Unit) :
    List Waiter × Startup :=
  let (waiters, s) := s.forEach (fun s _ => s.request) (List.range count)
  (s.finish result).forEach settle waiters

end Startup

end LyqlHighlight
