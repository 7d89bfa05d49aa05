import DodgeClock.Transitions

/-!
# An idle controller goes to sleep

sleep_timer is armed by main and again whenever a countdown ends. pair_cb and
start_cb stop it on every event and never arm it. So once main has armed it, an
idle controller has a running sleep_timer as long as those two callbacks only run
during a countdown or while the clock is paused.
-/
namespace DodgeClock
open EventSystem OneShotTimer OnceQueue

/-- The button is held down, as far as its edges tell. -/
def Held (s : State) (b : Button) : Prop := (lastLevel b s.hist).getD 0 ≠ 0

instance (s : State) (b : Button) : Decidable (Held s b) := inferInstanceAs (Decidable (_ ≠ _))

/-- Nothing that main.c knows of keeps the controller awake. -/
structure Idle (s : State) : Prop where
  noCountdown : ¬ s.clock.dTimer.Running
  notPaused : s.clock.clockState ≠ 1
  released : ∀ b, ¬ Held s b
  notQueued : ∀ b, .button b ∉ s.queue
  notHandled : ∀ b, s.worker.map (·.item) ≠ some (.button b)

/-- sleep_timer is only stopped while a countdown runs or the clock is paused, from
the moment main has armed it. -/
def StopsWhenBusy (s : State) (e : Event) : Prop :=
  e.ForStmt fun _ => s.armed = true → s.next = some (.clock .stopSleepTimer) →
    s.clock.dTimer.Running ∨ s.clock.clockState = 1

instance (s : State) (e : Event) : Decidable (StopsWhenBusy s e) :=
  inferInstanceAs (Decidable (Event.ForStmt _ e))

/-- Something will arm sleep_timer, or it runs. The last two are the points at which
start_cb and stop_cb are part-way through their assignments. -/
def Awaited (s : State) : Prop :=
  s.clock.sleepTimer.Running ∨ s.clock.dTimer.Running ∨ s.clock.clockState = 1 ∨
    s.worker = some ⟨.button .start, 3⟩ ∨ s.worker = some ⟨.button .stop, 4⟩

theorem awaited_step {s t : State} {e : Event}
    (hi : s.armed = true → s.off = false → Awaited s) (hc : StopsWhenBusy s e)
    (h : Step s e t) (harmed : t.armed = true) (hoff : t.off = false) : Awaited t := by
  cases h
  case dExpire hd => exact .inl (Timer.running_started _)
  case arm hr ha => exact .inl (Timer.running_started _)
  case sleepExpire hd => cases hoff
  case stopSleep r b pc hw ha =>
    -- the condition: something else keeps the controller from being idle
    rcases hc harmed (next_stopSleepTimer hw ha) with hd | h1
    · exact .inr (.inl hd)
    · exact .inr (.inr (.inl h1))
  case startState r hw he => exact .inr (.inr (.inr (.inl rfl)))
  case startTimer r hw he => exact .inr (.inl (Timer.running_started _))
  case stopTimer r hw he => exact .inr (.inr (.inr (.inr rfl)))
  case stopState r hw he => exact .inr (.inr (.inl rfl))
  case elapse n hd hs =>
    have hs := hi harmed hoff
    simpa [Awaited] using hs
  all_goals
    have hs := hi harmed hoff
    simp_all [Awaited]

theorem awaited_of_run {bonds acceptList : List Addr} {es : List Event} {s : State}
    (hrun : controller.run (boot bonds acceptList) es = some s)
    (hc : controller.Meets StopsWhenBusy (boot bonds acceptList) es) :
    s.armed = true → s.off = false → Awaited s :=
  Machine.run_invariant (fun _ _ _ hi hc h => awaited_step hi hc (step_inv h)) hrun hc
    (by simp [boot])

/-- If pair_cb and start_cb only run when the controller is busy, it never idles with
sleep_timer stopped. -/
theorem sleepTimer_running_of_idle (bonds acceptList : List Addr) (es : List Event) (s : State)
    (hrun : controller.run (boot bonds acceptList) es = some s)
    (hc : controller.Meets StopsWhenBusy (boot bonds acceptList) es)
    (harmed : s.armed = true) (hoff : s.off = false) (hidle : Idle s) :
    s.clock.sleepTimer.Running := by
  rcases awaited_of_run hrun hc harmed hoff with hs | hd | h1 | hw | hw
  · exact hs
  · exact absurd hd hidle.noCountdown
  · exact absurd h1 hidle.notPaused
  · exact absurd (by rw [hw]; rfl) (hidle.notHandled .start)
  · exact absurd (by rw [hw]; rfl) (hidle.notHandled .stop)

/-- main arms sleep_timer once advertising has begun. -/
def armedRun : List Event := startUp ++ [Event.arm]

/-- After that, one press of start, released while the countdown runs to its end. -/
def countdownRun : List Event :=
  armedRun ++ wholeEvent .start 1 5 ++ wholeEvent .start 0 3 ++ [Event.elapse 10000, .dExpire]

theorem sleepTimer_running_countdownRun :
    ∃ s, controller.run (boot [] []) countdownRun = some s ∧ s.clock.sleepTimer.Running :=
  ⟨_, rfl, sleepTimer_running_of_idle [] [] countdownRun _ rfl (by decide) rfl rfl
    ⟨by decide, by decide, by rintro ⟨⟩ <;> decide, by rintro ⟨⟩ <;> decide,
      by rintro ⟨⟩ <;> decide⟩⟩

/-- The start button, whose press has woken the controller, is released after that. -/
def wakeUpRun : List Event := armedRun ++ wholeEvent .start 0 3

/-- The release leaves the controller idle for good. -/
theorem not_sleepTimer_running_of_idle :
    ¬ ∀ (bonds acceptList : List Addr) (es : List Event) (s : State),
      controller.run (boot bonds acceptList) es = some s → s.armed = true → s.off = false →
        Idle s → s.clock.sleepTimer.Running := by
  intro h
  have hrunning := h [] [] wakeUpRun _ rfl rfl rfl
    ⟨by decide, by decide, by rintro ⟨⟩ <;> decide, by rintro ⟨⟩ <;> decide,
      by rintro ⟨⟩ <;> decide⟩
  exact absurd hrunning (by decide)

end DodgeClock
