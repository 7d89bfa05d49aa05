import DodgeClock.Transitions

/-!
# Callbacks that nothing preempts

The handler of a button whose callback only touches the shot clock runs that
callback as `Clock.runAll` does, if no interrupt lands in it. So a sequence of
button events can be studied on the shot clock alone, from the clock of any state
the controller reaches; `ClockSound` says what is known of that clock.
-/
namespace DodgeClock
open EventSystem OneShotTimer

theorem step_stmt {s : State} {f : Frame} {st : Stmt} (r : BtResults) (hoff : s.off = false)
    (hw : s.worker = some f) (hnext : s.next = some st) :
    controller.step s (.stmt r) = some ((s.exec r st).advance f) := by
  simp [controller, hoff, hw, hnext]

/-- The statements of the callback that are still to come, executed in a row. -/
theorem run_rest (b : Button) (r : BtResults) (rest : List ClockStmt) :
    ∀ (before : List ClockStmt) (s : State), rest ≠ [] → s.off = false →
      s.worker = some ⟨.button b, before.length + 2⟩ →
      activeFunc b (s.btns b).evt = (before ++ rest).map .clock →
      ∃ t, controller.run s (List.replicate rest.length (.stmt r)) = some t ∧
        t.worker = none ∧ t.clock = s.clock.runAll rest := by
  induction rest with
  | nil => exact fun _ _ h => absurd rfl h
  | cons st rest ih =>
      intro before s _ hoff hw hp
      have hnext : s.next = some (.clock st) := by
        simp [State.next, hw, State.program, handleButtonEvent, hp]
      have hstep := step_stmt r hoff hw hnext
      by_cases hrest : rest = []
      · subst hrest
        refine ⟨_, controller.run_cons_eq_some.mpr ⟨_, hstep, rfl⟩, ?_, ?_⟩
        · simp [State.advance, State.exec, State.program, handleButtonEvent, hp]
        · simp [State.advance, State.exec, State.program, handleButtonEvent, hp, Clock.runAll]
      · -- the handler goes on with the statement after `st`
        let next : State :=
          { s.exec r (.clock st) with worker := some ⟨.button b, (before ++ [st]).length + 2⟩ }
        have hadv : (s.exec r (.clock st)).advance ⟨.button b, before.length + 2⟩ = next := by
          simp [next, State.advance, State.exec, State.program, handleButtonEvent, hp, hrest]
        have hnextp : activeFunc b (next.btns b).evt = ((before ++ [st]) ++ rest).map .clock := by
          simpa [next, State.exec] using hp
        obtain ⟨t, hrun, hworker, hclock⟩ := ih (before ++ [st]) next hrest hoff rfl hnextp
        rw [hadv] at hstep
        exact ⟨t, controller.run_cons_eq_some.mpr ⟨_, hstep, hrun⟩, hworker, hclock⟩

/-- The call of a callback that only touches the shot clock, with all its statements. -/
theorem run_callback {s : State} {b : Button} {prog : List ClockStmt} (r : BtResults)
    (hoff : s.off = false) (hw : s.worker = some ⟨.button b, 1⟩)
    (hp : activeFunc b (s.btns b).evt = prog.map .clock) :
    ∃ t, controller.run s (List.replicate (prog.length + 1) (.stmt r)) = some t ∧
      t.worker = none ∧ t.clock = s.clock.runAll prog := by
  have hnext : s.next = some (.callActive b) := by
    simp [State.next, hw, State.program, handleButtonEvent]
  have hstep := step_stmt r hoff hw hnext
  by_cases hprog : prog = []
  · subst hprog
    refine ⟨_, controller.run_cons_eq_some.mpr ⟨_, hstep, rfl⟩, ?_, ?_⟩
    · simp [State.advance, State.exec, State.program, handleButtonEvent, hp]
    · simp [State.advance, State.exec, State.program, handleButtonEvent, hp, Clock.runAll]
  · have hpos : 0 < prog.length := List.length_pos_iff.mpr hprog
    let next : State := { s.exec r (.callActive b) with worker := some ⟨.button b, 2⟩ }
    have hadv : (s.exec r (.callActive b)).advance ⟨.button b, 1⟩ = next := by
      simp [next, State.advance, State.exec, State.program, handleButtonEvent, hp, hpos]
    obtain ⟨t, hrun, hworker, hclock⟩ := run_rest b r prog [] next hprog hoff rfl hp
    rw [hadv] at hstep
    exact ⟨t, controller.run_cons_eq_some.mpr ⟨_, hstep, hrun⟩, hworker, hclock⟩

/-- What is known of the shot clock in every reachable state. The middle two fields
carry the first through start_cb and stop_cb. -/
structure ClockSound (s : State) : Prop where
  paused : s.clock.clockState = 1 → ¬ s.clock.dTimer.Running
  starting : s.worker = some ⟨.button .start, 3⟩ → s.clock.clockState ≠ 1
  stopping : s.worker = some ⟨.button .stop, 4⟩ → ¬ s.clock.dTimer.Running
  range : s.clock.clockState ≤ 2

theorem clockSound_boot (bonds acceptList : List Addr) : ClockSound (boot bonds acceptList) := by
  constructor <;> simp [boot, Clock.boot]

theorem clockSound_step {s t : State} {e : Event} (hi : ClockSound s) (h : Step s e t) :
    ClockSound t := by
  obtain ⟨hpaused, hstart, hstop, hrange⟩ := hi
  cases h
  case startTimer r hw he =>
    -- clock_state is not 1 here, so the timer may run
    have hne := hstart hw
    exact ⟨fun h1 => absurd h1 hne, by simp, by simp, hrange⟩
  case stopState r hw he =>
    have hnot := hstop hw
    exact ⟨fun _ => hnot, by simp, by simp, by simp⟩
  case startState r hw he =>
    exact ⟨by simp, by simp, by simp, by simp⟩
  -- the others keep clock_state and d_timer, or stop d_timer
  all_goals constructor <;> simp_all

theorem clockSound_of_run {bonds acceptList : List Addr} {es : List Event} {s : State}
    (hrun : controller.run (boot bonds acceptList) es = some s) : ClockSound s :=
  Machine.run_invariant' (fun _ _ _ hi h => clockSound_step hi (step_inv h)) hrun
    (clockSound_boot bonds acceptList)

end DodgeClock
