import DodgeClock.BootOrder
import DodgeClock.Deadlines

/-!
# When the timers of the controller expire

The callbacks, the expiry of d_timer and main start and stop the two timers; nothing else
does. A countdown therefore ends exactly CLOCK_RESET_VALUE after start_cb has begun it,
and poweroff is entered exactly GO_SLEEP_LONG after main has armed sleep_timer or
GO_SLEEP_SHORT after a countdown has ended, in both cases if nothing has touched the
timer in between.
-/
namespace DodgeClock
open EventSystem OneShotTimer

section Positions
variable {s : State}

theorem next_startDTimer : s.next = some (.clock .startDTimer) ↔
    s.worker = some ⟨.button .start, 3⟩ ∧ (s.btns .start).evt = 1 := by
  constructor
  · intro h
    obtain ⟨f, hf, ha⟩ := exists_at_of_next h
    cases ha with
    | startTimer he => exact ⟨hf, he⟩
  · rintro ⟨hw, he⟩
    simp [State.next, hw, State.program, handleButtonEvent, activeFunc, startCb, he]

theorem next_stopDTimer : s.next = some (.clock .stopDTimer) ↔
    s.worker = some ⟨.button .stop, 3⟩ ∧ (s.btns .stop).evt = 1 := by
  constructor
  · intro h
    obtain ⟨f, hf, ha⟩ := exists_at_of_next h
    cases ha with
    | stopTimer he => exact ⟨hf, he⟩
  · rintro ⟨hw, he⟩
    simp [State.next, hw, State.program, handleButtonEvent, activeFunc, stopCb, he]

theorem advance_frame (f : Frame) (s : State) :
    (s.advance f).clock = s.clock ∧ (s.advance f).now = s.now := by
  unfold State.advance
  split
  · exact ⟨rfl, rfl⟩
  · split <;> exact ⟨rfl, rfl⟩

/-- A statement of a callback of main.c acts on the clock and takes no time. -/
theorem clock_of_next {t : State} {st : ClockStmt} {r : BtResults}
    (h : controller.step s (.stmt r) = some t) (hn : s.next = some (.clock st)) :
    t.clock = s.clock.exec st ∧ t.now = s.now := by
  obtain ⟨f, hw, -⟩ := exists_at_of_next hn
  have hoff : s.off = false := by simpa using not_off_of_step h
  rw [step_stmt r hoff hw hn] at h
  obtain rfl := Option.some.inj h
  exact advance_frame f (s.exec r (.clock st))

end Positions

section Countdown

/-- The step starts or stops d_timer. -/
def SetsDTimer (s : State) : Event → Prop
  | .stmt _ => s.next = some (.clock .startDTimer) ∨ s.next = some (.clock .stopDTimer)
  | .dExpire => True
  | _ => False

instance SetsDTimer.decidable (s : State) : (e : Event) → Decidable (SetsDTimer s e)
  | .stmt _ => inferInstanceAs (Decidable (_ ∨ _))
  | .dExpire => .isTrue trivial
  | .edge _ _ | .dequeue | .sleepExpire | .elapse _ | .dclkInit | .arm | .connected _ _
  | .connectFailed _ | .disconnected | .bonded => .isFalse id

theorem dTimer_timed :
    Timed controller (fun s => s.clock.dTimer) (fun s => s.now) SetsDTimer where
  passes {s t e} h hset := by
    cases step_inv h
    case dExpire hd => exact absurd trivial hset
    case elapse n hd hs => exact ⟨n, hd, rfl, rfl⟩
    case startTimer r hw he => exact absurd (.inl (next_startDTimer.mpr ⟨hw, he⟩)) hset
    case stopTimer r hw he => exact absurd (.inr (next_stopDTimer.mpr ⟨hw, he⟩)) hset
    all_goals exact ⟨0, fun _ => Nat.zero_le _, (Timer.elapse_zero _).symm, rfl⟩

/-- Only start_cb leaves d_timer running, for a press and with all of its duration left. -/
theorem inStartPress_of_sets {s t : State} {e : Event} (h : controller.step s e = some t)
    (hset : SetsDTimer s e) (hrun : t.clock.dTimer.Running) :
    (∃ r, e = .stmt r) ∧ s.InStartPress .startDTimer := by
  cases e with
  | stmt r =>
      rcases hset with hn | hn
      · exact ⟨⟨r, rfl⟩, inStartPress_startDTimer.mpr (next_startDTimer.mp hn)⟩
      · rw [(clock_of_next h hn).1] at hrun
        exact absurd hrun Timer.not_running_stopped
  | dExpire =>
      cases step_inv h with
      | dExpire hd => exact absurd hrun Timer.not_running_stopped
  | edge | dequeue | sleepExpire | elapse | dclkInit | arm | connected | connectFailed
  | disconnected | bonded => exact hset.elim

theorem started_of_inStartPress {s t : State} {r : BtResults}
    (h : controller.step s (.stmt r) = some t) (hpress : s.InStartPress .startDTimer) :
    t.clock.dTimer.Running ∧ t.now = s.now ∧ t.clock.dTimer.remaining = clockResetValue := by
  obtain ⟨hclock, hnow⟩ := clock_of_next h hpress.2.2
  rw [hclock]
  exact ⟨Timer.running_started _, hnow, rfl⟩

/-- Once d_timer is initialized, it can expire exactly CLOCK_RESET_VALUE after start_cb has
started it for a press, if it was neither started nor stopped since; and time does not go
on before it does. -/
theorem dExpire_iff (bonds acceptList : List Addr) (es : List Event) (s : State)
    (hrun : controller.run (boot bonds acceptList) es = some s) :
    ((∃ t, controller.step s .dExpire = some t) ↔ s.off = false ∧
      ∃ u r v, controller.Last SetsDTimer (boot bonds acceptList) es u (.stmt r) v ∧
        u.InStartPress .startDTimer ∧ s.now = u.now + clockResetValue) ∧
    ∀ u r v, controller.Last SetsDTimer (boot bonds acceptList) es u (.stmt r) v →
      u.InStartPress .startDTimer → s.now ≤ u.now + clockResetValue := by
  have hstep : (∃ t, controller.step s .dExpire = some t) ↔
      s.off = false ∧ s.clock.dTimer.Due := by
    cases hoff : s.off <;> simp [controller, hoff, Clock.expireDTimer_eq_some]
  rw [hstep, dTimer_timed.due_iff_last hrun Timer.not_running_stopped]
  refine ⟨and_congr_right fun _ => ⟨?_, ?_⟩, ?_⟩
  · rintro ⟨u, e, v, hlast, hrunning, hnow⟩
    obtain ⟨⟨r, rfl⟩, hpress⟩ := inStartPress_of_sets hlast.step_eq hlast.holds hrunning
    obtain ⟨-, htime, hleft⟩ := started_of_inStartPress hlast.step_eq hpress
    refine ⟨u, r, v, hlast, hpress, ?_⟩
    omega
  · rintro ⟨u, r, v, hlast, hpress, hnow⟩
    obtain ⟨hrunning, htime, hleft⟩ := started_of_inStartPress hlast.step_eq hpress
    refine ⟨u, .stmt r, v, hlast, hrunning, ?_⟩
    omega
  · intro u r v hlast hpress
    obtain ⟨hrunning, htime, hleft⟩ := started_of_inStartPress hlast.step_eq hpress
    obtain ⟨after, hafter, hsets⟩ := hlast.rest hrun
    have hle := dTimer_timed.now_le hafter hsets hrunning
    omega

/-- Start is pressed four seconds into a countdown, which begins again. -/
def restartedRun : List Event :=
  wholeEvent .start 1 5 ++ [Event.elapse 4000] ++ wholeEvent .start 1 5 ++ [Event.elapse 10000]

theorem dExpire_iff_restarted : ∃ s, controller.run (boot [] []) restartedRun = some s ∧
    ((∃ t, controller.step s .dExpire = some t) ↔ s.off = false ∧
      ∃ u r v, controller.Last SetsDTimer (boot [] []) restartedRun u (.stmt r) v ∧
        u.InStartPress .startDTimer ∧ s.now = u.now + clockResetValue) ∧
    ∀ u r v, controller.Last SetsDTimer (boot [] []) restartedRun u (.stmt r) v →
      u.InStartPress .startDTimer → s.now ≤ u.now + clockResetValue :=
  ⟨_, rfl, dExpire_iff [] [] restartedRun _ rfl⟩

end Countdown

section Sleep

/-- The step starts or stops sleep_timer. -/
def SetsSleepTimer (s : State) : Event → Prop
  | .stmt _ => s.next = some (.clock .stopSleepTimer)
  | .arm | .dExpire | .sleepExpire => True
  | _ => False

instance SetsSleepTimer.decidable (s : State) : (e : Event) → Decidable (SetsSleepTimer s e)
  | .stmt _ => inferInstanceAs (Decidable (_ = _))
  | .arm | .dExpire | .sleepExpire => .isTrue trivial
  | .edge _ _ | .dequeue | .elapse _ | .dclkInit | .connected _ _ | .connectFailed _
  | .disconnected | .bonded => .isFalse id

/-- What sleep_timer is started for, by main and by d_clock_expire. -/
def sleepFor : Event → Option ℕ
  | .arm => some goSleepLong
  | .dExpire => some goSleepShort
  | _ => none

theorem sleepTimer_timed :
    Timed controller (fun s => s.clock.sleepTimer) (fun s => s.now) SetsSleepTimer where
  passes {s t e} h hset := by
    cases step_inv h
    case dExpire | sleepExpire | arm => exact absurd trivial hset
    case elapse n hd hs => exact ⟨n, hs, rfl, rfl⟩
    case stopSleep r b pc hw ha => exact absurd (next_stopSleepTimer hw ha) hset
    all_goals exact ⟨0, fun _ => Nat.zero_le _, (Timer.elapse_zero _).symm, rfl⟩

/-- What a step that sets sleep_timer leaves of it. -/
theorem sleepTimer_of_sets {s t : State} {e : Event} (h : controller.step s e = some t)
    (hset : SetsSleepTimer s e) :
    t.clock.sleepTimer = ⟨sleepFor e⟩ ∧ t.now = s.now := by
  cases e with
  | stmt r =>
      obtain ⟨hclock, hnow⟩ := clock_of_next h hset
      rw [hclock]
      exact ⟨rfl, hnow⟩
  | dExpire => cases step_inv h with | dExpire hd => exact ⟨rfl, rfl⟩
  | arm => cases step_inv h with | arm hr ha => exact ⟨rfl, rfl⟩
  | sleepExpire => cases step_inv h with | sleepExpire hd => exact ⟨rfl, rfl⟩
  | edge | dequeue | elapse | dclkInit | connected | connectFailed | disconnected
  | bonded => exact hset.elim

/-- poweroff can be entered exactly GO_SLEEP_LONG after main has armed sleep_timer or
GO_SLEEP_SHORT after d_clock_expire has started it, if it was not started or stopped
since; and time does not go on before it is. -/
theorem powerOff_iff (bonds acceptList : List Addr) (es : List Event) (s : State)
    (hrun : controller.run (boot bonds acceptList) es = some s) :
    ((∃ t, controller.step s .sleepExpire = some t) ↔ s.off = false ∧
      ∃ u e v d, controller.Last SetsSleepTimer (boot bonds acceptList) es u e v ∧
        sleepFor e = some d ∧ s.now = u.now + d) ∧
    ∀ u e v d, controller.Last SetsSleepTimer (boot bonds acceptList) es u e v →
      sleepFor e = some d → s.now ≤ u.now + d := by
  have hstep : (∃ t, controller.step s .sleepExpire = some t) ↔
      s.off = false ∧ s.clock.sleepTimer.Due := by
    cases hoff : s.off <;> simp [controller, hoff]
  rw [hstep, sleepTimer_timed.due_iff_last hrun Timer.not_running_stopped]
  refine ⟨and_congr_right fun _ => ⟨?_, ?_⟩, ?_⟩
  · rintro ⟨u, e, v, hlast, hrunning, hnow⟩
    obtain ⟨htimer, htime⟩ := sleepTimer_of_sets hlast.step_eq hlast.holds
    rw [htimer] at hrunning hnow
    obtain ⟨d, hd⟩ : ∃ d, sleepFor e = some d := Option.ne_none_iff_exists'.mp hrunning
    refine ⟨u, e, v, d, hlast, hd, ?_⟩
    rw [hnow, htime, hd]
    rfl
  · rintro ⟨u, e, v, d, hlast, hd, hnow⟩
    obtain ⟨htimer, htime⟩ := sleepTimer_of_sets hlast.step_eq hlast.holds
    rw [hd] at htimer
    refine ⟨u, e, v, hlast, ?_, ?_⟩
    · rw [htimer]
      exact Timer.running_started d
    · rw [htimer, htime, hnow]
      rfl
  · intro u e v d hlast hd
    obtain ⟨htimer, htime⟩ := sleepTimer_of_sets hlast.step_eq hlast.holds
    rw [hd] at htimer
    obtain ⟨after, hafter, hsets⟩ := hlast.rest hrun
    have hle := sleepTimer_timed.now_le hafter hsets (by rw [htimer]; exact Timer.running_started d)
    rw [htimer, htime] at hle
    exact hle

/-- A countdown is started and runs out; ten seconds later nothing has happened. -/
theorem powerOff_iff_idle : ∃ s, controller.run (boot [] []) countdownAndIdleRun = some s ∧
    ((∃ t, controller.step s .sleepExpire = some t) ↔ s.off = false ∧
      ∃ u e v d, controller.Last SetsSleepTimer (boot [] []) countdownAndIdleRun u e v ∧
        sleepFor e = some d ∧ s.now = u.now + d) ∧
    ∀ u e v d, controller.Last SetsSleepTimer (boot [] []) countdownAndIdleRun u e v →
      sleepFor e = some d → s.now ≤ u.now + d :=
  ⟨_, rfl, powerOff_iff [] [] countdownAndIdleRun _ rfl⟩

end Sleep
end DodgeClock
