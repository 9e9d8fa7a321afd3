import LyqlHighlight.Proofs.Sessions

namespace LyqlHighlight

/-!
# The barrier before the first pass

A parser that has to be started up is not asked for anything before.  The requests for the start-up,
the end of its run, those who go on after it and the passes may come in any order.

* `Session.startResult?` — the result of the start-up, read off the moves alone;
* `Session.Barred`, `Session.barred_run` — what holds throughout a session of such a parser;
* `Session.ended_iff` — the run has ended with the result that the moves tell;
* `Session.startup_barrier` — the run begins at most once, everybody learns its result, and until
  somebody has learned that it ended well no pass asks the parser.
-/

namespace Session

/-! ### The start-up as the moves tell it -/

/-- Whether the move is a request for the start-up. -/
def Move.isRequest : Move → Bool
  | .request => true
  | _ => false

/-- The result of the run, if the move ends it. -/
def Move.result? : Move → Option (Except Failure Unit)
  | .finish result => some result
  | _ => none

/-- The result of the start-up in a row of moves: that of the first end of a run behind the first
    request. -/
def startResult? (moves : List Move) : Option (Except Failure Unit) :=
  (moves.dropWhile fun m => !m.isRequest).findSome? Move.result?

/-- How far a move takes the run. -/
def Move.advance : StartupRun → Move → StartupRun
  | .pending, .request => .running
  | .running, .finish result => .ended (some result)
  | run, _ => run

theorem foldl_advance_ended (result : Except Failure Unit) (moves : List Move) :
    moves.foldl Move.advance (.ended (some result)) = .ended (some result) := by
  induction moves with
  | nil => rfl
  | cons m moves ih =>
    have stays : Move.advance (.ended (some result)) m = .ended (some result) := by
      rcases result with e | _ <;> cases m <;> rfl
    rw [List.foldl_cons, stays, ih]

/-- The first end of a run that is running is its end. -/
theorem foldl_advance_running (moves : List Move) :
    moves.foldl Move.advance .running = .ended (moves.findSome? Move.result?) := by
  induction moves with
  | nil => rfl
  | cons m moves ih =>
    rw [List.foldl_cons, List.findSome?_cons]
    cases m with
    | finish result => exact foldl_advance_ended result moves
    | _ => exact ih

/-- The first request begins the run. -/
theorem foldl_advance_pending (moves : List Move) :
    moves.foldl Move.advance .pending =
      if moves.any Move.isRequest then .ended (startResult? moves) else .pending := by
  unfold startResult?
  induction moves with
  | nil => rfl
  | cons m moves ih =>
    cases m with
    | request =>
      have first : (Move.request :: moves).findSome? Move.result? =
          moves.findSome? Move.result? := rfl
      simpa [Move.isRequest, Move.advance, first] using foldl_advance_running moves
    | _ => simpa [Move.isRequest, Move.advance] using ih

/-- Without a request the moves tell no result. -/
theorem startResult?_of_not_any {moves : List Move} (h : moves.any Move.isRequest = false) :
    startResult? moves = none := by
  unfold startResult?
  induction moves with
  | nil => rfl
  | cons m moves ih =>
    simp only [List.any_cons, Bool.or_eq_false_iff] at h
    rw [List.dropWhile_cons_of_pos (by simp [h.1]), ih h.2]

/-! ### What holds throughout a session -/

/-- What holds throughout a session of a parser that has to be started up. -/
structure Barred (s : Session) : Prop where
  /-- The start-up is sound. -/
  sound : s.adapter.startup.Sound
  /-- The answers to the requests agree with the run. -/
  agrees : ∀ w ∈ s.parties, w.Agrees s.adapter.startup.run
  /-- Nothing has been made of a text before the parser was ready. -/
  untouched : s.adapter.ready = false → s.adapter.lastGood = .empty

theorem barred_new (parser : Parser) (depth : Int) (keep : Bool) (ds : Descriptors) :
    (new parser depth keep .required ds).Barred :=
  ⟨Startup.required_sound, by simp [new], fun _ => rfl⟩

/-- Before the parser is ready, a move leaves the last good tree alone. -/
theorem lastGood_step_of_not_ready {s : Session} (h : s.adapter.ready = false) (m : Move) :
    (s.step m).adapter.lastGood = s.adapter.lastGood := by
  cases m with
  | attempt text =>
    show (s.adapter.attempt s.descriptors text).adapter.lastGood = s.adapter.lastGood
    rw [Adapter.attempt_of_not_ready h]
    rfl
  | resume party =>
    simp only [step]
    split <;> rfl
  | _ => rfl

/-- The start-up stays sound. -/
theorem sound_step {s : Session} (h : s.adapter.startup.Sound) (m : Move) :
    (s.step m).adapter.startup.Sound := by
  cases m with
  | request => exact h.request
  | finish result => exact h.finish result
  | resume party =>
    simp only [step]
    split
    · next waiter _ => exact h.settle waiter
    · exact h
  | attempt text =>
    show (s.adapter.attempt s.descriptors text).adapter.startup.Sound
    rw [Adapter.startup_attempt]
    exact h
  | _ => exact h

/-- The answers stay in agreement with the run. -/
theorem agrees_step {s : Session} (h : s.Barred) (m : Move) :
    ∀ w ∈ (s.step m).parties, w.Agrees (s.step m).adapter.startup.run := by
  have old : ∀ w ∈ s.parties, w.Agrees (s.step m).adapter.startup.run :=
    fun w hw => Startup.agrees_onward (h.agrees w hw) (s.onward_step m)
  cases m with
  | request =>
    intro w hw
    rcases List.mem_append.mp hw with hw | hw
    · exact old w hw
    · rw [List.mem_singleton.mp hw]
      exact Startup.agrees_request h.sound
  | resume party =>
    simp only [step] at old ⊢
    split
    · next waiter hwaiter =>
      simp only [hwaiter] at old
      intro w hw
      rcases List.mem_or_eq_of_mem_set hw with hw | rfl
      · exact old w hw
      · exact Startup.agrees_settle (h.agrees waiter (List.mem_of_getElem? hwaiter))
    · exact h.agrees
  | _ => exact old

/-- A move keeps a session barred. -/
theorem Barred.step {s : Session} (h : s.Barred) (m : Move) : (s.step m).Barred := by
  refine ⟨sound_step h.sound m, agrees_step h m, fun hready => ?_⟩
  have before : s.adapter.ready = false := by
    rw [Bool.eq_false_iff] at hready ⊢
    exact fun hc => hready ((s.onward_step m).ready hc)
  rw [lastGood_step_of_not_ready before, h.untouched before]

theorem barred_run {s : Session} (h : s.Barred) (moves : List Move) : (s.run moves).Barred := by
  induction moves generalizing s with
  | nil => exact h
  | cons m moves ih => exact ih (h.step m)

/-- How far a move takes the run of a start-up. -/
theorem run_step {s : Session} (h : s.adapter.startup.Sound) (m : Move) :
    (s.step m).adapter.startup.run = m.advance s.adapter.startup.run := by
  cases m with
  | request =>
    show s.adapter.startup.request.2.run = _
    rw [Startup.run_request h]
    cases s.adapter.startup.run <;> rfl
  | finish result =>
    show (s.adapter.startup.finish result).run = _
    rw [Startup.run_finish]
    cases s.adapter.startup.run <;> rfl
  | resume party =>
    have same : Move.advance s.adapter.startup.run (.resume party) = s.adapter.startup.run := by
      cases s.adapter.startup.run <;> rfl
    rw [same]
    simp only [step]
    split
    · exact Startup.run_settle _ _
    · rfl
  | attempt text =>
    show (s.adapter.attempt s.descriptors text).adapter.startup.run = _
    rw [Adapter.startup_attempt]
    cases s.adapter.startup.run <;> rfl
  | _ => cases hrun : s.adapter.startup.run <;> exact hrun

theorem run_run {s : Session} (h : s.Barred) (moves : List Move) :
    (s.run moves).adapter.startup.run = moves.foldl Move.advance s.adapter.startup.run := by
  induction moves generalizing s with
  | nil => rfl
  | cons m moves ih => rw [run_cons, ih (h.step m), run_step h.sound, List.foldl_cons]

/-- The run has ended with a result exactly if the moves tell that result. -/
theorem ended_iff (parser : Parser) (depth : Int) (keep : Bool) (ds : Descriptors)
    (moves : List Move) (result : Except Failure Unit) :
    ((new parser depth keep .required ds).run moves).adapter.startup.run =
        .ended (some result) ↔
      startResult? moves = some result := by
  rw [run_run (barred_new parser depth keep ds)]
  show moves.foldl Move.advance .pending = _ ↔ _
  rw [foldl_advance_pending]
  split
  · exact StartupRun.ended_inj
  · next hnone =>
    rw [startResult?_of_not_any (by simpa using hnone)]
    rcases result with e | _ <;> simp [StartupRun.ended]

/-! ### The barrier -/

/-- What a pass does before the parser is ready. -/
structure Idle (s : Session) (text : String) (pass : Pass) : Prop where
  /-- It does not ask the parser for a reply, whatever asking would do. -/
  unasked : ∀ {m : Type → Type} [Monad m] (ask : String → m Reply),
    s.adapter.attemptBy ask s.descriptors text = pure pass
  /-- It leaves the adapter and its last good tree as they were. -/
  adapter_eq : pass.adapter = s.adapter
  /-- It asks for no descriptor. -/
  descriptors_eq : pass.descriptors = s.descriptors
  /-- It logs for tracing only. -/
  log_debug : ∀ record ∈ pass.log, record.level = .debug
  /-- It shows what failed passes show, which is the empty tree. -/
  result_eq : pass.result = .ok ⟨s.adapter.fallback, some .notReady⟩ ∧
    s.adapter.fallback = .empty

theorem idle_of_not_ready {s : Session} (h : s.Barred) (hready : s.adapter.ready = false)
    (text : String) : s.Idle text (s.adapter.attempt s.descriptors text) := by
  rw [Adapter.attempt_of_not_ready hready]
  refine ⟨fun ask => Adapter.attemptBy_of_not_ready ask hready _ _, rfl, rfl, ?_, rfl, ?_⟩
  · intro record hrecord
    rw [List.mem_singleton.mp hrecord]
    rfl
  · rw [Adapter.fallback, h.untouched hready, ite_self]

/-- **The barrier.** For a parser that has to be started up, after any row of moves:

    * the run of the start-up has begun at most once;
    * the parser is ready only if the run has ended well, and then it stays ready;
    * whoever has been answered has learned the result of the run;
    * once the run has ended, whoever asks or goes on is answered with its result;
    * after a run that failed the parser is never ready;
    * until the parser is ready, each pass is idle. -/
theorem startup_barrier (parser : Parser) (depth : Int) (keep : Bool) (ds : Descriptors)
    (moves more : List Move) :
    let s := (new parser depth keep .required ds).run moves
    s.adapter.startup.begun ≤ 1 ∧
    (s.adapter.ready = true →
      startResult? moves = some (.ok ()) ∧ (s.run more).adapter.ready = true) ∧
    (∀ result, .answered result ∈ s.parties → startResult? moves = some result) ∧
    (∀ result, startResult? moves = some result →
      (s.step .request).parties = s.parties ++ [.answered result] ∧
      ∀ party < s.parties.length,
        (s.step (.resume party)).parties[party]? = some (.answered result)) ∧
    (∀ e, startResult? moves = some (.error e) → (s.run more).adapter.ready = false) ∧
    (s.adapter.ready = false → ∀ text, s.Idle text (s.adapter.attempt s.descriptors text)) := by
  intro s
  have barred : s.Barred := barred_run (barred_new parser depth keep ds) moves
  have ended : ∀ result, s.adapter.startup.run = .ended (some result) ↔
      startResult? moves = some result := ended_iff parser depth keep ds moves
  refine ⟨barred.sound.begun_le, fun hready => ⟨?_, ready_run hready more⟩, ?_, ?_, ?_, ?_⟩
  · exact (ended (.ok ())).mp (barred.sound.completed_of_ready hready)
  · intro result hanswered
    exact (ended result).mp (barred.agrees _ hanswered result rfl)
  · intro result hresult
    have hrun := (ended result).mpr hresult
    refine ⟨?_, fun party hparty => ?_⟩
    · show s.parties ++ [s.adapter.startup.request.1] = _
      rw [Startup.request_of_ended barred.sound hrun]
    · have settled := Startup.settle_of_ended
        (barred.agrees _ (List.getElem_mem hparty)) hrun
      simp [step, settled, hparty]
  · intro e hfailed
    -- A parser that became ready later on would belie the result of the run.
    rw [Bool.eq_false_iff]
    intro hready
    have later := barred_run barred more
    have completed := later.sound.completed_of_ready hready
    have stays := (s.onward_run more).ended _ ((ended (.error e)).mpr hfailed)
    simp [completed, StartupRun.ended] at stays
  · exact fun hready text => idle_of_not_ready barred hready text

/-- Two requests, a pass before the end of the run, one before anybody goes on, one after, and a
    request at the end. -/
def crowd (result : Except Failure Unit) : List Move :=
  [.request, .attempt "a", .request, .finish result, .attempt "a", .resume 1, .attempt "a",
    .resume 0, .request]

/-- Only the pass after somebody has gone on makes a tree, and none does if the run fails. -/
theorem startup_barrier_crowd :
    let start := new touchyParser 2 true .required (.empty .lyql)
    (start.run (crowd (.ok ()))).passes.map (fun p => p.made?.isSome) = [false, false, true] ∧
      (start.run (crowd (.ok ()))).adapter.startup.begun = 1 ∧
      (∀ w ∈ (start.run (crowd (.ok ()))).parties, ∀ result, w = .answered result →
        result = .ok ()) ∧
      ∀ e : Failure, (start.run (crowd (.error e))).adapter.ready = false ∧
        .answered (.error e) ∈ ((start.run (crowd (.error e))).step .request).parties := by
  refine ⟨by decide +kernel, by decide +kernel, ?_, fun e => ?_⟩
  · rintro w hw result rfl
    have learned := (startup_barrier touchyParser 2 true (.empty .lyql) (crowd (.ok ())) []).2.2.1
    have told := learned result hw
    cases told
    rfl
  · have barrier := startup_barrier touchyParser 2 true (.empty .lyql) (crowd (.error e)) []
    refine ⟨barrier.2.2.2.2.1 e rfl, ?_⟩
    rw [(barrier.2.2.2.1 (.error e) rfl).1]
    simp

end Session

end LyqlHighlight
