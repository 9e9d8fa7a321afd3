import LyqlHighlight.Parse.Startup

namespace LyqlHighlight

/-!
# Moves of a start-up

Whatever order the moves of a start-up come in, the run begins once, its end is final, and everybody
who is answered learns the result with which it ended.

* `StartupRun.ended` — how far a run is that has begun, by its result;
* `Startup.Sound` — what holds of every start-up that is needed;
* `Startup.Onward` — a later state of a start-up: what has ended stays as it ended;
* `Waiter.Agrees` — an answer is the result of the run;
* `Startup.run_request`, `Startup.run_finish`, `Startup.run_settle` — how far the moves take the
  run.
-/

/-- How far a run is that has begun, by the result with which it ended, if it has. -/
def StartupRun.ended : Option (Except Failure Unit) → StartupRun
  | none => .running
  | some (.ok ()) => .completed
  | some (.error e) => .failed e

/-- Runs that ended alike ended with the same result. -/
theorem StartupRun.ended_inj {r r' : Option (Except Failure Unit)} :
    ended r = ended r' ↔ r = r' := by
  rcases r with _ | e | _ <;> rcases r' with _ | e' | _ <;> simp [ended]

/-- A request waits, or it has been answered with the result with which the run ended. -/
def Waiter.Agrees (run : StartupRun) (w : Waiter) : Prop :=
  ∀ result, w = .answered result → run = .ended (some result)

namespace Startup

/-- What holds of a start-up that is needed. -/
structure Sound (s : Startup) : Prop where
  /-- The start-up is needed. -/
  needed : s.needed = true
  /-- The parser is ready only once the run has ended well. -/
  completed_of_ready : s.ready = true → s.run = .completed
  /-- The run begins at most once. -/
  begun_le : s.begun ≤ 1
  /-- A run that is pending has not begun. -/
  begun_of_pending : s.run = .pending → s.begun = 0

/-- From one state of a start-up on: a parser that is ready stays so, and a run that has ended keeps
    its result. -/
structure Onward (s t : Startup) : Prop where
  /-- The parser stays ready. -/
  ready : s.ready = true → t.ready = true
  /-- The result stays. -/
  ended : ∀ result, s.run = .ended (some result) → t.run = .ended (some result)

theorem Onward.refl (s : Startup) : s.Onward s :=
  ⟨id, fun _ => id⟩

theorem Onward.trans {s t u : Startup} (h : s.Onward t) (h' : t.Onward u) : s.Onward u :=
  ⟨fun hs => h'.ready (h.ready hs), fun r hs => h'.ended r (h.ended r hs)⟩

theorem required_sound : required.Sound :=
  ⟨rfl, by simp [required], by simp [required], fun _ => rfl⟩

variable {s : Startup}

/-! ### How far the moves take the run -/

/-- The first request begins the run, and no other one does anything to it. -/
theorem run_request (h : s.Sound) :
    s.request.2.run = if s.run matches .pending then .running else s.run := by
  obtain ⟨needed, run, ready, begun⟩ := s
  have completed := h.completed_of_ready
  have hneeded := h.needed
  simp only at completed hneeded
  subst hneeded
  cases ready with
  | true => simp [request, completed rfl]
  | false => cases run <;> simp [request]

/-- A run ends while it is running, and only then. -/
theorem run_finish (s : Startup) (result : Except Failure Unit) :
    (s.finish result).run =
      if s.run matches .running then .ended (some result) else s.run := by
  obtain ⟨needed, run, ready, begun⟩ := s
  cases run <;> cases result <;> simp [finish, StartupRun.ended]

/-- Going on does nothing to the run. -/
@[simp] theorem run_settle (s : Startup) (w : Waiter) : (s.settle w).2.run = s.run := by
  cases w with
  | answered result => rfl
  | waiting =>
    show s.resume.2.run = s.run
    unfold resume
    split <;> rfl

/-! ### Moves go onward -/

theorem onward_request (s : Startup) : s.Onward s.request.2 := by
  unfold request
  split
  · exact ⟨fun _ => rfl, fun _ => id⟩
  · split
    · next hrun =>
      refine ⟨id, fun result hended => ?_⟩
      rw [hrun] at hended
      rcases result with e | _ <;> simp [StartupRun.ended] at hended
    · exact Onward.refl s
    · exact ⟨fun _ => rfl, fun _ => id⟩
    · exact Onward.refl s

theorem onward_finish (s : Startup) (result : Except Failure Unit) :
    s.Onward (s.finish result) := by
  refine ⟨fun hready => ?_, fun r hended => ?_⟩
  · unfold finish
    split <;> exact hready
  · rw [run_finish, hended]
    rcases r with e | _ <;> simp [StartupRun.ended]

theorem onward_settle (s : Startup) (w : Waiter) : s.Onward (s.settle w).2 := by
  refine ⟨fun hready => ?_, fun r hended => ?_⟩
  · cases w with
    | answered result => exact hready
    | waiting =>
      show s.resume.2.ready = true
      unfold resume
      split
      · rfl
      · exact hready
      · exact hready
  · rw [run_settle, hended]

/-! ### Moves keep a start-up sound -/

theorem Sound.request (h : s.Sound) : s.request.2.Sound := by
  have hneeded := h.needed
  unfold Startup.request
  split
  · next hready =>
    have ready : s.ready = true := by simpa [hneeded] using hready
    exact ⟨hneeded, fun _ => h.completed_of_ready ready, h.begun_le, h.begun_of_pending⟩
  · next hready =>
    have waiting : ¬s.ready = true := fun hc => hready (by simp [hc])
    split
    · next hrun =>
      have none_begun := h.begun_of_pending hrun
      refine ⟨hneeded, fun hc => absurd hc waiting, ?_, by simp⟩
      show s.begun + 1 ≤ 1
      omega
    · exact h
    · next hrun => exact ⟨hneeded, fun _ => hrun, h.begun_le, h.begun_of_pending⟩
    · exact h

theorem Sound.finish (h : s.Sound) (result : Except Failure Unit) : (s.finish result).Sound := by
  unfold Startup.finish
  split
  · exact ⟨h.needed, fun _ => rfl, h.begun_le, by simp⟩
  · next hrun =>
    refine ⟨h.needed, fun hready => ?_, h.begun_le, by simp⟩
    -- A parser that is ready has no run that is still running.
    have := h.completed_of_ready hready
    simp [hrun] at this
  · exact h

theorem Sound.settle (h : s.Sound) (w : Waiter) : (s.settle w).2.Sound := by
  cases w with
  | answered result => exact h
  | waiting =>
    show s.resume.2.Sound
    unfold resume
    split
    · next hrun => exact ⟨h.needed, fun _ => hrun, h.begun_le, h.begun_of_pending⟩
    · exact h
    · exact h

/-! ### Answers agree with the run -/

theorem agrees_onward {w : Waiter} {t : Startup}
    (h : w.Agrees s.run) (hst : s.Onward t) : w.Agrees t.run :=
  fun result hw => hst.ended result (h result hw)

/-- Whoever asks when the run has ended is answered with its result, and others wait. -/
theorem agrees_request (h : s.Sound) : s.request.1.Agrees s.request.2.run := by
  intro result hanswer
  unfold Startup.request at hanswer ⊢
  split at hanswer
  · next hready =>
    have ready : s.ready = true := by simpa [h.needed] using hready
    cases hanswer
    rw [if_pos hready]
    exact h.completed_of_ready ready
  · next hready =>
    rw [if_neg hready]
    split at hanswer
    · cases hanswer
    · cases hanswer
    · next hrun =>
      cases hanswer
      simp [hrun, StartupRun.ended]
    · next hrun =>
      cases hanswer
      simp [hrun, StartupRun.ended]

/-- Whoever goes on after the end of the run learns its result. -/
theorem agrees_settle {w : Waiter} (h : w.Agrees s.run) :
    (s.settle w).1.Agrees (s.settle w).2.run := by
  rw [run_settle]
  cases w with
  | answered result => exact h
  | waiting =>
    intro result hanswer
    have answer : s.resume.1 = .answered result := hanswer
    unfold resume at answer
    split at answer
    · next hrun =>
      cases answer
      exact hrun
    · next hrun =>
      cases answer
      exact hrun
    · cases answer

/-- A request is answered at once when the run has ended. -/
theorem request_of_ended (h : s.Sound) {result : Except Failure Unit}
    (hended : s.run = .ended (some result)) : s.request.1 = .answered result := by
  have hneeded := h.needed
  unfold request
  split
  · next hready =>
    have completed := h.completed_of_ready (by simpa [hneeded] using hready)
    rcases result with e | _
    · simp [completed, StartupRun.ended] at hended
    · rfl
  · rcases result with e | _ <;> simp [hended, StartupRun.ended]

/-- Whoever has waited is answered when the run has ended. -/
theorem settle_of_ended {w : Waiter} (h : w.Agrees s.run) {result : Except Failure Unit}
    (hended : s.run = .ended (some result)) : (s.settle w).1 = .answered result := by
  cases w with
  | answered known =>
    have same := h known rfl
    rw [hended, StartupRun.ended_inj] at same
    cases same
    rfl
  | waiting =>
    show s.resume.1 = .answered result
    rcases result with e | _ <;> simp [resume, hended, StartupRun.ended]

end Startup

end LyqlHighlight
