import DodgeClock.Transitions

/-!
# When the controller powers off

poweroff is the expiry function of sleep_timer. It never comes during a countdown,
because d_timer ends strictly before a sleep_timer that runs beside it. How long
the buttons have been untouched by then is another matter: user_cb and stop_cb
leave sleep_timer as they find it.
-/
namespace DodgeClock
open EventSystem OneShotTimer

section Countdown

/-- Outside the window in which start_cb has started d_timer and not yet stopped
sleep_timer, d_timer expires strictly first if both run. -/
structure ExpiresFirst (s : State) : Prop where
  bounded : s.clock.dTimer.remaining ≤ clockResetValue
  first : s.clock.dTimer.Running → s.clock.sleepTimer.Running →
    s.InStartPress .stopSleepTimer ∨ s.clock.dTimer.remaining < s.clock.sleepTimer.remaining

theorem expiresFirst_boot (bonds acceptList : List Addr) : ExpiresFirst (boot bonds acceptList) :=
  ⟨Nat.zero_le _, fun h => absurd h Timer.not_running_stopped⟩

theorem remaining_le_step {s t : State} {e : Event}
    (hi : s.clock.dTimer.remaining ≤ clockResetValue) (h : Step s e t) :
    t.clock.dTimer.remaining ≤ clockResetValue := by
  cases h
  case elapse n _ _ =>
    rw [Timer.remaining_elapse]
    omega
  case startTimer r hw he => exact le_rfl
  case dExpire hd => exact Nat.zero_le _
  case stopTimer r hw he => exact Nat.zero_le _
  all_goals exact hi

theorem expiresFirst_step {s t : State} {e : Event} (hi : ExpiresFirst s) (h : Step s e t) :
    ExpiresFirst t := by
  obtain ⟨hb, hf⟩ := hi
  refine ⟨remaining_le_step hb h, ?_⟩
  simp only [inStartPress_stopSleepTimer] at hf ⊢
  cases h
  case edge b level => simpa using hf
  case elapse n hd hs =>
    -- neither timer is passed over, so the difference stays
    rw [Timer.running_elapse, Timer.running_elapse, Timer.remaining_elapse, Timer.remaining_elapse]
    intro h1 h2
    have hdn : n ≤ s.clock.dTimer.remaining := hd h1
    have hsn : n ≤ s.clock.sleepTimer.remaining := hs h2
    rcases hf h1 h2 with hw | hlt
    · exact .inl hw
    · right
      omega
  case arm hr ha =>
    -- main arms sleep_timer with more than a whole countdown
    intro _ _
    have hlong : clockResetValue < goSleepLong := by decide
    exact .inr (lt_of_le_of_lt hb hlong)
  case startTimer r hw he => exact fun _ _ => .inl ⟨rfl, he⟩
  -- in the others one of the timers is stopped, or both stay as they are
  all_goals simp_all

theorem expiresFirst_of_run {bonds acceptList : List Addr} {es : List Event} {s : State}
    (hrun : controller.run (boot bonds acceptList) es = some s) : ExpiresFirst s :=
  Machine.run_invariant' (fun _ _ _ hi h => expiresFirst_step hi (step_inv h)) hrun
    (expiresFirst_boot bonds acceptList)

/-- poweroff is never entered while d_timer runs, except in that window of start_cb. -/
theorem not_running_of_powerOff (bonds acceptList : List Addr) (es : List Event) (s t : State)
    (hrun : controller.run (boot bonds acceptList) es = some s)
    (hoff : controller.step s .sleepExpire = some t) :
    ¬ s.clock.dTimer.Running ∨ s.InStartPress .stopSleepTimer := by
  have hinv := expiresFirst_of_run hrun
  cases step_inv hoff with
  | sleepExpire hdue =>
      by_cases hd : s.clock.dTimer.Running
      · rcases hinv.first hd hdue.running with hw | hlt
        · exact .inr hw
        · rw [hdue.remaining] at hlt
          exact absurd hlt (Nat.not_lt_zero _)
      · exact .inl hd

/-- A whole countdown, and ten idle seconds. -/
def countdownAndIdleRun : List Event :=
  startUp ++ [Event.arm, .elapse 29000] ++ wholeEvent .start 1 5 ++ wholeEvent .start 0 3 ++
    [Event.elapse 10000, .dExpire, .elapse 10000]

theorem not_running_countdownAndIdleRun :
    ∃ s t, controller.run (boot [] []) countdownAndIdleRun = some s ∧
      controller.step s .sleepExpire = some t ∧
      (¬ s.clock.dTimer.Running ∨ s.InStartPress .stopSleepTimer) :=
  ⟨_, _, rfl, rfl, not_running_of_powerOff [] [] countdownAndIdleRun _ _ rfl rfl⟩

end Countdown

section Inactivity

/-- The callback of `b` returns with the next statement. -/
def State.Finishing (s : State) (b : Button) : Prop :=
  s.worker.map (fun f => (f.item, f.pc + 1)) =
    some (.button b, (handleButtonEvent b (s.btns b).evt).length)

instance (s : State) (b : Button) : Decidable (s.Finishing b) :=
  inferInstanceAs (Decidable (_ = _))

/-- user_cb and stop_cb return only when sleep_timer is stopped or has GO_SLEEP_SHORT
left at least. -/
def ReturnsInTime (s : State) (e : Event) : Prop :=
  e.ForStmt fun _ => s.Finishing .user ∨ s.Finishing .stop →
    s.clock.sleepTimer.Running → goSleepShort ≤ s.clock.sleepTimer.remaining

instance (s : State) (e : Event) : Decidable (ReturnsInTime s e) :=
  inferInstanceAs (Decidable (Event.ForStmt _ e))

/-- By the time sleep_timer expires, every event so far lies GO_SLEEP_SHORT back. -/
structure Rested (s : State) : Prop where
  past : ∀ b evt time, .handled b evt time ∈ s.hist → time ≤ s.now
  rested : s.clock.sleepTimer.Running → ∀ b evt time, .handled b evt time ∈ s.hist →
    time + goSleepShort ≤ s.now + s.clock.sleepTimer.remaining

theorem rested_boot (bonds acceptList : List Addr) : Rested (boot bonds acceptList) :=
  ⟨by simp [boot], by simp [boot]⟩

theorem finishing_callActive {s : State} {b : Button} (hw : s.worker = some ⟨.button b, 1⟩)
    (ha : activeFunc b (s.btns b).evt = []) : s.Finishing b := by
  simp [State.Finishing, hw, handleButtonEvent, ha]

theorem finishing_stopState {s : State} (hw : s.worker = some ⟨.button .stop, 4⟩)
    (he : (s.btns .stop).evt = 1) : s.Finishing .stop := by
  simp [State.Finishing, hw, handleButtonEvent, activeFunc, stopCb, he]

theorem now_le_step {s t : State} {e : Event} (h : Step s e t) : s.now ≤ t.now := by
  cases h
  case elapse n _ _ => exact Nat.le_add_right s.now n
  all_goals exact le_rfl

/-- A sleep_timer that runs after a step keeps its deadline, or was just started. -/
theorem deadline_step {s t : State} {e : Event} (h : Step s e t)
    (hr : t.clock.sleepTimer.Running) :
    (s.clock.sleepTimer.Running ∧
        t.now + t.clock.sleepTimer.remaining = s.now + s.clock.sleepTimer.remaining) ∨
      goSleepShort ≤ t.clock.sleepTimer.remaining := by
  cases h
  case dExpire hd => exact .inr le_rfl
  case arm ha hn =>
    right
    show goSleepShort ≤ goSleepLong
    decide
  case elapse n _ hs =>
    have hrun : s.clock.sleepTimer.Running := (Timer.running_elapse n _).mp hr
    have hn : n ≤ s.clock.sleepTimer.remaining := hs hrun
    refine .inl ⟨hrun, ?_⟩
    show s.now + n + (s.clock.sleepTimer.elapse n).remaining = _
    rw [Timer.remaining_elapse]
    omega
  case sleepExpire hd => exact absurd hr Timer.not_running_stopped
  case stopSleep r b pc hw ha => exact absurd hr Timer.not_running_stopped
  all_goals exact .inl ⟨hr, rfl⟩

/-- An event newly handled stopped sleep_timer, or its callback leaves that timer alone. -/
theorem handled_step {s t : State} {e : Event} (h : Step s e t) {b : Button} {evt time : ℕ}
    (hmem : .handled b evt time ∈ t.hist) :
    .handled b evt time ∈ s.hist ∨ time = s.now ∧ t.now = s.now ∧
      (¬ t.clock.sleepTimer.Running ∨ t.clock.sleepTimer = s.clock.sleepTimer ∧
        (s.Finishing .user ∨ s.Finishing .stop) ∧ ∃ r, e = .stmt r) := by
  cases h
  case stopSleep r c pc hw ha =>
    rcases List.mem_cons.mp hmem with heq | hold
    · have htime : time = s.now := by cases heq; rfl
      exact .inr ⟨htime, rfl, .inl Timer.not_running_stopped⟩
    · exact .inl hold
  case callActiveEmpty r c hw ha =>
    have hfin := finishing_callActive hw ha
    rcases List.mem_cons.mp hmem with heq | hold
    · have htime : time = s.now := by cases heq; rfl
      refine .inr ⟨htime, rfl, .inr ⟨rfl, ?_, r, rfl⟩⟩
      rcases user_or_stop_of_empty ha with rfl | rfl
      · exact .inl hfin
      · exact .inr hfin
    · exact .inl (by simpa using hold)
  case stopState r hw he =>
    rcases List.mem_cons.mp hmem with heq | hold
    · have htime : time = s.now := by cases heq; rfl
      exact .inr ⟨htime, rfl, .inr ⟨rfl, .inr (finishing_stopState hw he), r, rfl⟩⟩
    · exact .inl hold
  -- no other transition ends a button handler
  all_goals exact .inl (by simpa [State.buttonEventCb] using hmem)

theorem rested_step {s t : State} {e : Event} (hi : Rested s) (hc : ReturnsInTime s e)
    (h : Step s e t) : Rested t := by
  obtain ⟨hpast, hrest⟩ := hi
  have hnow := now_le_step h
  have hpast' : ∀ b evt time, .handled b evt time ∈ t.hist → time ≤ t.now := by
    intro b evt time hmem
    rcases handled_step h hmem with hold | ⟨htime, -, -⟩
    · exact le_trans (hpast b evt time hold) hnow
    · omega
  refine ⟨hpast', ?_⟩
  intro hr b evt time hmem
  rcases deadline_step h hr with ⟨hrun, hdead⟩ | hlong
  · rcases handled_step h hmem with hold | ⟨htime, hsame, hstop | ⟨htimer, hfin, r, rfl⟩⟩
    · have hle := hrest hrun b evt time hold
      omega
    · exact absurd hr hstop
    · have hleft : goSleepShort ≤ s.clock.sleepTimer.remaining := hc hfin hrun
      omega
  · have hle := hpast' b evt time hmem
    omega

/-- If user_cb and stop_cb always return in time, no event was handled during the
GO_SLEEP_SHORT milliseconds before poweroff is entered. -/
theorem inactive_before_powerOff (bonds acceptList : List Addr) (es : List Event) (s t : State)
    (hrun : controller.run (boot bonds acceptList) es = some s)
    (hc : controller.Meets ReturnsInTime (boot bonds acceptList) es)
    (hoff : controller.step s .sleepExpire = some t) :
    ∀ b evt time, .handled b evt time ∈ s.hist → time + goSleepShort ≤ s.now := by
  have hinv : Rested s :=
    Machine.run_invariant (fun _ _ _ hi hc h => rested_step hi hc (step_inv h)) hrun hc
      (rested_boot bonds acceptList)
  cases step_inv hoff with
  | sleepExpire hdue =>
      intro b evt time hmem
      have hle := hinv.rested hdue.running b evt time hmem
      rw [hdue.remaining] at hle
      omega

/-- The user button is pressed as soon as main has armed sleep_timer. -/
def earlyUserRun : List Event :=
  startUp ++ [Event.arm] ++ wholeEvent .user 1 2 ++ [Event.elapse 30000]

theorem inactive_earlyUserRun :
    ∃ s t, controller.run (boot [] []) earlyUserRun = some s ∧
      controller.step s .sleepExpire = some t ∧
      ∀ b evt time, .handled b evt time ∈ s.hist → time + goSleepShort ≤ s.now :=
  ⟨_, _, rfl, rfl, inactive_before_powerOff [] [] earlyUserRun _ _ rfl (by decide) rfl⟩

/-- The user button is pressed a millisecond before sleep_timer expires. -/
def lateUserRun : List Event :=
  startUp ++ [Event.arm, .elapse 29999] ++ wholeEvent .user 1 2 ++ [Event.elapse 1]

theorem not_inactive_before_powerOff :
    ¬ ∀ (bonds acceptList : List Addr) (es : List Event) (s t : State),
      controller.run (boot bonds acceptList) es = some s →
        controller.step s .sleepExpire = some t →
          ∀ b evt time, .handled b evt time ∈ s.hist → time + goSleepShort ≤ s.now := by
  intro h
  have hlate := h [] [] lateUserRun _ _ rfl rfl .user 1 29999 (by decide)
  exact absurd hlate (by decide)

end Inactivity
end DodgeClock
